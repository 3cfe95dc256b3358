import Legitimacy.Ledger.Growth
import Legitimacy.Ledger.Verification

namespace Legitimacy.Ledger

open Transaction HashChain

section

def isNegativeZero (value : Float) : Bool := value == 0 && decide (value ≠ 0)

theorem storedReal_eq {value : Float} (positive : isNegativeZero value = false) : storedReal value = value := by
  unfold storedReal
  split
  · rename_i zero
    rw [isNegativeZero, zero, Bool.true_and, decide_eq_false_iff_not, not_not] at positive
    exact positive.symm
  · rfl

def Entry.positiveZeros : Entry → Prop
  | ⟨.certificates, content⟩ => isNegativeZero content.outcome = false
  | ⟨.declaredSacrifices, content⟩ => isNegativeZero content.impactBound = false
  | _ => True

theorem ofReal_of_isNaN {value : Float} (nan : value.isNaN = true) : SqlValue.ofReal value = .null := by
  rw [SqlValue.ofReal, if_pos nan]

theorem certificates_number {content : CertificateContent} (full : nullColumn certificates (certificates.params content) = none) :
    content.outcome.isNaN = false := by
  cases nan : content.outcome.isNaN with
  | false => rfl
  | true =>
    have null := ofReal_of_isNaN nan
    simp [nullColumn, certificates, isNull, null] at full

theorem declaredSacrifices_number {content : DeclaredSacrificeChainContent}
    (full : nullColumn declaredSacrifices (declaredSacrifices.params content) = none) : content.impactBound.isNaN = false := by
  cases nan : content.impactBound.isNaN with
  | false => rfl
  | true =>
    have null := ofReal_of_isNaN nan
    simp [nullColumn, declaredSacrifices, isNull, null] at full

theorem Entry.read_params {entry : Entry} (positive : entry.positiveZeros)
    (full : nullColumn (schemaOf entry.table) ((schemaOf entry.table).params entry.content) = none) :
    (schemaOf entry.table).read ((schemaOf entry.table).params entry.content) = .ok entry.content := by
  obtain ⟨table, content⟩ := entry
  cases table with
  | compiledRules => exact compiledRules_read_params content
  | certificates =>
    have read := certificates_read_params (certificates_number full)
    rw [storedReal_eq positive] at read
    exact read
  | declaredSacrifices =>
    have read := declaredSacrifices_read_params (declaredSacrifices_number full)
    rw [storedReal_eq positive] at read
    exact read
  | paradoxResults => exact paradoxResults_read_params content

end

variable (host : Host)

/-- What was written to a table: its rows are sealed links from rowid 1 on, and its head is exact. -/
structure TableWritten (allowed : Entry → Prop) (database : Database) (table : Table) (links : List (RowLink (Content table))) : Prop where
  rows : (database.rows table).list = links.map fun link => sealedRow host (schemaOf table) link.entry.2 link.previous link.entry.1
  rowids : links.map (·.entry.1) = (List.range links.length).map fun place : Nat => (place : Int) + 1
  chain : IsChain (fun prevHash entry rowHash => rowHash = chainHash prevHash entry.1 ((schemaOf table).contentText host entry.2)) "" links
  head : database.heads table = some ⟨.integer links.length, .text (lastHash "" links)⟩
  full : ∀ link ∈ links, nullColumn (schemaOf table) ((schemaOf table).params link.entry.2) = none
  entries : ∀ link ∈ links, allowed ⟨table, link.entry.2⟩

def Written (allowed : Entry → Prop) (database : Database) : Prop := ∀ table, ∃ links, TableWritten host allowed database table links

variable {host}

theorem nextRowid_of_range {rows : Rows} (range : rows.rowids = (List.range rows.list.length).map fun place : Nat => (place : Int) + 1)
    {freeRowid : List Int → Option Int} {rowid : Int} (next : rows.nextRowid freeRowid = some rowid) : rowid = (rows.list.length : Int) + 1 := by
  have mem : ∀ {other : Int}, other ∈ rows.rowids ↔ 1 ≤ other ∧ other ≤ rows.list.length := by
    intro other
    rw [range, List.mem_map]
    constructor
    · rintro ⟨place, inside, rfl⟩
      have below := List.mem_range.1 inside
      omega
    · rintro ⟨positive, below⟩
      exact ⟨(other - 1).toNat, List.mem_range.2 (by omega), by omega⟩
  have absent := not_mem_of_nextRowid next
  unfold Rows.nextRowid at next
  cases last : rows.list.getLast? with
  | none =>
    rw [last] at next
    rw [List.getLast?_eq_none_iff.1 last]
    exact (Option.some.inj next).symm
  | some final =>
    simp only [last] at next
    obtain ⟨others, shape⟩ := List.getLast?_eq_some_iff.1 last
    have atEnd : final.rowid = rows.list.length := by
      have whole : rows.rowids = others.map Row.rowid ++ [final.rowid] := by
        rw [Rows.rowids, shape, List.map_append]
        rfl
      have size : rows.list.length = others.length + 1 := by rw [shape, List.length_append, List.length_singleton]
      rw [whole, size, List.range_succ, List.map_append] at range
      have tails := List.append_inj_right' range rfl
      simp only [List.map_cons, List.map_nil, List.cons.injEq, and_true] at tails
      omega
    split at next
    · have same := Option.some.inj next
      omega
    · obtain ⟨-, allowed⟩ := Option.filter_eq_some_iff.1 next
      simp only [Bool.and_eq_true, decide_eq_true_eq] at allowed
      exact absurd (mem.2 ⟨allowed.1.1, by omega⟩) absent

section

variable {allowed : Entry → Prop} {database : Database} {table : Table} {links : List (RowLink (Content table))}

theorem TableWritten.length (written : TableWritten host allowed database table links) :
    (database.rows table).list.length = links.length := by
  rw [written.rows, List.length_map]

theorem TableWritten.rowids_eq (written : TableWritten host allowed database table links) :
    (database.rows table).rowids = (List.range (database.rows table).list.length).map fun place : Nat => (place : Int) + 1 := by
  rw [written.length, ← written.rowids, Rows.rowids, written.rows, List.map_map]
  rfl

theorem TableWritten.lastHash_eq (written : TableWritten host allowed database table links) :
    (database.rows table).lastHash = .ok (lastHash "" links) := by
  unfold Rows.lastHash
  rw [written.rows]
  rcases List.eq_nil_or_concat links with rfl | ⟨front, last, rfl⟩
  · rfl
  · rw [List.concat_eq_append] at written ⊢
    have sealed := (isChain_append.1 written.chain).2.2
    rw [List.map_append, List.getLast?_append, lastHash_append, sealed]
    rfl

theorem TableWritten.rowsChain (written : TableWritten host Entry.positiveZeros database table links) :
    RowsChain host (schemaOf table) "" (database.rows table).list links := by
  refine ⟨?_, written.chain.mono fun link member sealed => ?_⟩
  · rw [written.rows, List.forall₂_map_left_iff, List.forall₂_same]
    intro link member
    have read := Entry.read_params (written.entries link member) (written.full link member)
    refine ⟨?_, rfl⟩
    unfold readRow
    rw [show (sealedRow host (schemaOf table) link.entry.2 link.previous link.entry.1).columns = (schemaOf table).params link.entry.2 from rfl,
      read, written.chain.seals_mem link member]
    rfl
  · simp [Seals, sealedBy, sealed]

end

theorem written_emptyLedger (allowed : Entry → Prop) : Written host allowed emptyLedger :=
  fun _ => ⟨[], rfl, rfl, trivial, rfl, nofun, nofun⟩

theorem Written.appendEntry {allowed : Entry → Prop} {database : Database} (written : Written host allowed database) {entry : Entry}
    {prevHash : String} {rowid : Int} (appendable : Appendable host database entry prevHash rowid) (permitted : allowed entry) :
    Written host allowed (database.appendEntry host entry prevHash rowid) := by
  intro table
  by_cases same : table = entry.table
  · subst same
    obtain ⟨links, before⟩ := written entry.table
    have atRow := nextRowid_of_range before.rowids_eq appendable.next
    rw [before.length] at atRow
    have tied : prevHash = lastHash "" links := Except.ok.inj (appendable.last.symm.trans before.lastHash_eq)
    have behind : ∀ other ∈ (database.rows entry.table).list, other.rowid < rowid := by
      intro other member
      have listed : other.rowid ∈ (database.rows entry.table).rowids := List.mem_map_of_mem member
      rw [before.rowids_eq, before.length, List.mem_map] at listed
      obtain ⟨place, inside, equal⟩ := listed
      have below := List.mem_range.1 inside
      omega
    have whole : ((database.appendEntry host entry prevHash rowid).rows entry.table).list =
        (database.rows entry.table).list ++ [sealedRow host (schemaOf entry.table) entry.content prevHash rowid] := by
      rw [appendEntry_rows]
      exact Rows.insert_last _ behind
    refine ⟨links ++ [⟨prevHash, (rowid, entry.content), chainHash prevHash rowid ((schemaOf entry.table).contentText host entry.content)⟩],
      ?_, ?_, ?_, ?_, ?_, ?_⟩
    · rw [whole, before.rows, List.map_append]
      rfl
    · rw [List.map_append, before.rowids, List.length_append, List.length_singleton, List.range_succ, List.map_append, atRow]
      rfl
    · exact isChain_append.2 ⟨before.chain, tied, rfl⟩
    · rw [appendEntry_heads, whole, lastHash_append, List.length_append, List.length_append, before.length]
      rfl
    · exact List.forall_mem_append.2 ⟨before.full, List.forall_mem_singleton.2 appendable.full⟩
    · exact List.forall_mem_append.2 ⟨before.entries, List.forall_mem_singleton.2 permitted⟩
  · obtain ⟨links, before⟩ := written table
    have sameRows := @appendEntry_rows_other host database entry prevHash rowid table same
    have sameHeads := @appendEntry_heads_other host database entry prevHash rowid table same
    exact ⟨links, by rw [sameRows]; exact before.rows, before.rowids, before.chain, by rw [sameHeads]; exact before.head, before.full,
      before.entries⟩

theorem Written.grows {allowed : Entry → Prop} {before after : Database} {entries : List Entry} (written : Written host allowed before)
    (grows : Grows host before entries after) (permitted : ∀ entry ∈ entries, allowed entry) : Written host allowed after := by
  induction grows with
  | nil => exact written
  | cons appendable _ ih =>
    exact ih (written.appendEntry appendable (permitted _ List.mem_cons_self)) fun other member =>
      permitted other (List.mem_cons_of_mem _ member)

theorem emptyLedger_kept : Kept emptyLedger := ⟨fun _ => ⟨0, .text "", rfl⟩, fun _ _ member => by cases member⟩

section

theorem TableWritten.judged {database : Database} {table : Table} {links : List (RowLink (Content table))}
    (written : TableWritten host Entry.positiveZeros database table links) :
    Judged host (schemaOf table) database (validTableStatus table links.length) := by
  have ends : verifyRows host (schemaOf table) "" 0 (database.rows table).list = .ok (.inr (links.length, lastHash "" links)) :=
    verifyRows_eq_inr.2 ⟨by rw [Nat.zero_add, written.length], links, written.rowsChain, rfl⟩
  refine ⟨_, by rw [schemaOf_table]; exact ends, .inr ⟨_, _, some (links.length, lastHash "" links), rfl, ?_, ?_⟩⟩
  · rw [schemaOf_table, anchoredHead, written.head]
    rfl
  · rw [statusOf, schemaOf_table]
    simp [compareHead]

theorem Written.verifies {database : Database} (written : Written host Entry.positiveZeros database) (kept : Kept database) :
    ∃ result, (verifyChain host).on ⟨database, none⟩ = (.ok result, ⟨database, none⟩) ∧ result.valid = true := by
  obtain ⟨_, rules⟩ := written .compiledRules
  obtain ⟨_, certified⟩ := written .certificates
  obtain ⟨_, sacrifices⟩ := written .declaredSacrifices
  obtain ⟨_, paradoxes⟩ := written .paradoxResults
  unfold verifyChain withConnection
  rw [bind_on_ok (kept.openConnection_on host)]
  exact ⟨_, verifyTables_on ⟨_, _, _, _, rules.judged, certified.judged, sacrifices.judged, paradoxes.judged, rfl⟩, rfl⟩

theorem leads_verifyChain {before after : Database} {result : ChainVerificationResult}
    (run : Leads (verifyChain host) before (.ok result) after) :
    Leads (openConnection host) before (.ok ⟨⟩) after ∧ AllJudged host after result := by
  obtain ⟨⟨⟩, between, opened, verified⟩ := leads_bind_ok run
  obtain ⟨rfl, judged⟩ := leads_verifyTables verified
  exact ⟨opened, judged⟩

end

/-- The states of a ledger whose connections, one or several, run allowed recordings from a fresh file on. Each transaction is whole,
and may fail; other connections may be opened in between. -/
inductive Reachable (host : Host) (allowed : Recording → Prop) : Database → Prop
  | opened {database} : Leads (openLedger host) .fresh (.ok ⟨⟩) database → Reachable host allowed database
  | recorded {database next recording outcome} : Reachable host allowed database → allowed recording →
      Leads (recording.run host) database outcome next → Reachable host allowed next
  | reopened {database next outcome} : Reachable host allowed database → Leads (openLedger host) database outcome next →
      Reachable host allowed next

def Recording.positiveZeros (host : Host) (recording : Recording) : Prop := ∀ entry ∈ recording.entries host, entry.positiveZeros

theorem openLedger_openConnection {before after : Database} {outcome : Except LegitimacyError Unit}
    (run : Leads (openLedger host) before outcome after) : Leads (openConnection host) before outcome after := by
  obtain ⟨refusal, rest, run⟩ := run
  unfold openLedger withConnection at run
  rw [bind_pure_unit] at run
  exact ⟨refusal, rest, run⟩

theorem Reachable.kept {allowed : Recording → Prop} {database : Database} (reachable : Reachable host allowed database) : Kept database := by
  induction reachable with
  | opened run => exact openConnection_kept (openLedger_openConnection run)
  | recorded _ _ run ih =>
    rcases Recording.leads_run run with ⟨_, -, rfl⟩ | ⟨-, grows⟩
    · exact ih
    · exact grows.kept ih
  | reopened _ run ih => rwa [ih.openConnection_same (openLedger_openConnection run)]

theorem Reachable.written {recordings : Recording → Prop} {allowed : Entry → Prop} {database : Database}
    (reachable : Reachable host recordings database) (permits : ∀ recording, recordings recording → ∀ entry ∈ recording.entries host, allowed entry) :
    Written host allowed database := by
  induction reachable with
  | opened run =>
    rw [openConnection_fresh (openLedger_openConnection run)]
    exact written_emptyLedger allowed
  | recorded _ recordable run ih =>
    rcases Recording.leads_run run with ⟨_, -, rfl⟩ | ⟨-, grows⟩
    · exact ih
    · exact ih.grows grows (permits _ recordable)
  | reopened before run ih => rwa [before.kept.openConnection_same (openLedger_openConnection run)]

/-- What verification owes a ledger: it finds it valid, and every head has the row count and the last hash of its table. -/
def Verifies (host : Host) (database : Database) : Prop :=
  (∃ result, (verifyChain host).on ⟨database, none⟩ = (.ok result, ⟨database, none⟩) ∧ result.valid = true) ∧
    ∀ table, ∃ last, (database.rows table).lastHash = .ok last ∧
      database.heads table = some ⟨.integer (database.rows table).list.length, .text last⟩

/-- A ledger that no negative zero was written to is valid whatever was recorded, failed or interleaved. -/
theorem reachable_verifies {database : Database} (reachable : Reachable host (Recording.positiveZeros host) database) :
    Verifies host database := by
  have written : Written host Entry.positiveZeros database := reachable.written fun recording positive => positive
  refine ⟨written.verifies reachable.kept, fun table => ?_⟩
  obtain ⟨links, inTable⟩ := written table
  exact ⟨_, inTable.lastHash_eq, by rw [inTable.length]; exact inTable.head⟩

section

theorem openLedger_fresh {host : Host} (passed : ((openLedger host).on ⟨.fresh, none⟩).1.toBool = true) :
    Leads (openLedger host) .fresh (.ok ⟨⟩) emptyLedger := by
  obtain ⟨⟨⟩, run⟩ := ExceptRun.exists_of_toBool passed
  have reached := leads_on (openLedger host) ⟨.fresh, none⟩
  rw [run] at reached
  rwa [openConnection_fresh (openLedger_openConnection reached)] at reached

theorem openLedger_exampleHost : Leads (openLedger exampleHost) .fresh (.ok ⟨⟩) emptyLedger :=
  openLedger_fresh (by decide +kernel)

theorem insertCertificate_emptyLedger {host : Host} {certificate : Certificate}
    (passed : ((insertCertificate host certificate).on ⟨emptyLedger, none⟩).1 = .ok ⟨⟩) :
    Leads (Recording.run host (.certificate certificate)) emptyLedger (.ok ⟨⟩)
      (emptyLedger.append host certificates (certificateContent host certificate) "" 1) := by
  have reached := leads_on (insertCertificate host certificate) ⟨emptyLedger, none⟩
  rw [passed] at reached
  rcases leads_insert reached with ⟨failure, differs, -⟩ | ⟨-, body⟩
  · cases differs
  · obtain ⟨prevHash, rowid, last, -, next, made⟩ := leads_appendRow body
    have tied : "" = prevHash := Except.ok.inj last
    have first : 1 = rowid := Option.some.inj next
    rw [made, ← tied, ← first] at reached
    exact reached

def zeroCertificate : Certificate := ⟨"r", "1", "h", "c", -0.0, ∅, "t"⟩

/-- A certificate with a positive number is recorded in an opened ledger. -/
theorem reachable_verifies_one :
    Verifies exampleHost ((insertCertificate exampleHost { zeroCertificate with outcome := 1 }).on ⟨emptyLedger, none⟩).2.store := by
  have recorded := leads_on (Recording.run exampleHost (.certificate { zeroCertificate with outcome := 1 })) ⟨emptyLedger, none⟩
  refine reachable_verifies (.recorded (.opened openLedger_exampleHost) (fun entry member => ?_) recorded)
  rw [List.mem_singleton.1 member]
  show isNegativeZero 1 = false
  rfl

def zeroContent : CertificateContent := certificateContent exampleHost zeroCertificate

/-- What the ledger holds after a certificate with a negative zero. -/
def zeroLedger : Database := emptyLedger.append exampleHost certificates zeroContent "" 1

theorem chainHash_zero_ne : chainHash "" 1 (certificates.contentText exampleHost zeroContent) ≠
    chainHash "" 1 (certificates.contentText exampleHost { zeroContent with outcome := 0 }) := by
  have recorded : certificates.contentText exampleHost zeroContent =
      "\x7b\"claimant_id\":\"c\",\"compiled_rule_hash\":\"h\",\"evidence_json\":\"\x7b\x7d\",\"issued_at\":\"t\",\"outcome\":-0.0,\"rule_name\":\"r\",\"rule_version\":\"1\"\x7d" := by
    decide +kernel
  have stored : certificates.contentText exampleHost { zeroContent with outcome := 0 } =
      "\x7b\"claimant_id\":\"c\",\"compiled_rule_hash\":\"h\",\"evidence_json\":\"\x7b\x7d\",\"issued_at\":\"t\",\"outcome\":0.0,\"rule_name\":\"r\",\"rule_version\":\"1\"\x7d" := by
    decide +kernel
  rw [recorded, stored]
  decide +kernel

theorem zeroLedger_broken : verifyRows exampleHost certificates "" 0 (zeroLedger.rows .certificates).list =
    .ok (.inl (invalidTableStatus .certificates 0 "rowid 1 has mismatched row_hash")) := by
  have rows : (zeroLedger.rows .certificates).list = [sealedRow exampleHost certificates zeroContent "" 1] := rfl
  have read : readRow certificates (sealedRow exampleHost certificates zeroContent "" 1) =
      .ok ({ zeroContent with outcome := 0 }, "", chainHash "" 1 (certificates.contentText exampleHost zeroContent)) := by
    have number : zeroContent.outcome.isNaN = false := by rfl
    have stored := certificates_read_params number
    have zero : storedReal zeroContent.outcome = 0 := by rfl
    rw [zero] at stored
    unfold readRow
    rw [show (sealedRow exampleHost certificates zeroContent "" 1).columns = certificates.params zeroContent from rfl, stored]
    rfl
  have unsealed : sealedBy exampleHost certificates "" 1 { zeroContent with outcome := 0 }
      (chainHash "" 1 (certificates.contentText exampleHost zeroContent)) = false := by
    have modern : (chainHash "" 1 (certificates.contentText exampleHost zeroContent) ==
        chainHash "" 1 (certificates.contentText exampleHost { zeroContent with outcome := 0 })) = false :=
      beq_eq_false_iff_ne.2 chainHash_zero_ne
    rw [sealedBy, modern]
    rfl
  rw [rows, verifyRows, read]
  simp only [ne_eq, not_true_eq_false, if_false]
  rw [if_pos]
  · rfl
  · exact unsealed

theorem reachable_zeroLedger : Reachable exampleHost (fun _ => True) zeroLedger :=
  .recorded (.opened openLedger_exampleHost) trivial (insertCertificate_emptyLedger rfl)

theorem not_reachable_verifies : ¬∀ host database, Reachable host (fun _ => True) database → Verifies host database := by
  intro verifies
  obtain ⟨⟨result, run, valid⟩, -⟩ := verifies exampleHost zeroLedger reachable_zeroLedger
  obtain ⟨⟨⟩, between, opened, verified⟩ := leads_bind_ok (on_leads run)
  obtain rfl := reachable_zeroLedger.kept.openConnection_same opened
  obtain ⟨-, rules, certified, sacrifices, paradoxes, -, judged, -, -, rfl⟩ := leads_verifyTables verified
  have sound : certified.valid = true := by
    simp only [List.all_cons, Bool.and_eq_true] at valid
    exact valid.2.1
  obtain ⟨outcome, rows, ⟨broken, rfl, rfl⟩ | ⟨_, _, _, rfl, -⟩⟩ := judged
  · rw [(verifyRows_inl_invalid rows).1] at sound
    cases sound
  · have stuck := zeroLedger_broken.symm.trans rows
    cases stuck

end

end Legitimacy.Ledger
