import Legitimacy.Ledger.TamperPersistence

namespace Legitimacy.Ledger

open Transaction HashChain

variable {host : Host}

/-- The head that initialization gives a table. -/
def HeadOfRows (database : Database) (table : Table) (headHash : String) : Prop :=
  (database.rows table).lastHash = .ok headHash ∧
    database.heads table = some ⟨.integer (database.rows table).list.length, .text headHash⟩

theorem initializeChainHead_elsewhere {table other : Table} {before after : Database}
    (run : Leads (initializeChainHead table) before (.ok ⟨⟩) after) (untouched : other ≠ table ∨ Anchored before other) :
    after.heads other = before.heads other := by
  rcases leads_initializeChainHead run with ⟨-, rfl⟩ | ⟨headHash, missing, -, rfl⟩
  · rfl
  · rcases untouched with differs | ⟨count, hash, present⟩
    · exact Database.setHead_other _ _ differs
    · by_cases same : other = table
      · subst same
        rw [missing] at present
        cases present
      · exact Database.setHead_other _ _ same

theorem initializeChainHeads_missing {tables : List Table} {before after : Database} {table : Table}
    (run : Leads (tables.forM initializeChainHead) before (.ok ⟨⟩) after) (listed : table ∈ tables)
    (missing : before.heads table = none) : ∃ headHash, HeadOfRows after table headHash := by
  have settled : ∀ (tables : List Table) (start : Database) (headHash : String), HeadOfRows start table headHash →
      Leads (tables.forM initializeChainHead) start (.ok ⟨⟩) after → HeadOfRows after table headHash := by
    intro tables
    induction tables with
    | nil =>
      intro start headHash found steps
      rw [(leads_pure steps).2]
      exact found
    | cons first rest ih =>
      intro start headHash found steps
      rw [List.forM_eq_forM, List.forM_cons] at steps
      obtain ⟨⟨⟩, between, atFirst, others⟩ := leads_bind_ok steps
      have sameRows := (initializeChainHead_anchored atFirst).1
      have sameHead := @initializeChainHead_elsewhere _ table _ _ atFirst (.inr ⟨_, _, found.2⟩)
      refine ih between headHash ⟨by rw [sameRows]; exact found.1, ?_⟩ others
      rw [sameHead, sameRows]
      exact found.2
  induction tables generalizing before with
  | nil => cases listed
  | cons first rest ih =>
    rw [List.forM_eq_forM, List.forM_cons] at run
    obtain ⟨⟨⟩, between, atFirst, others⟩ := leads_bind_ok run
    by_cases same : table = first
    · subst same
      rcases leads_initializeChainHead atFirst with ⟨⟨count, hash, present⟩, -⟩ | ⟨headHash, -, last, rfl⟩
      · rw [missing] at present
        cases present
      · exact ⟨headHash, settled rest (before.setHead table _) headHash ⟨last, Database.setHead_heads ..⟩ others⟩
    · have still := initializeChainHead_elsewhere atFirst (.inl same)
      exact ih others ((List.mem_cons.1 listed).resolve_left same) (still.trans missing)

theorem rowHash_of_reads {γ : Type} {schema : Schema γ} {row : Row} {link : RowLink γ} (reads : Reads schema row link) :
    row.rowHash = .text link.hash := by
  obtain ⟨read, -⟩ := reads
  obtain ⟨content, -, afterContent⟩ := ExceptRun.bind_eq_ok.1 read
  obtain ⟨prevHash, -, afterPrev⟩ := ExceptRun.bind_eq_ok.1 afterContent
  obtain ⟨rowHash, atHash, final⟩ := ExceptRun.bind_eq_ok.1 afterPrev
  obtain rfl : rowHash = link.hash := congrArg (fun found => found.2.2) (Except.ok.inj final)
  cases stored : row.rowHash with
  | text value =>
    rw [stored] at atHash
    exact congrArg SqlValue.text (Except.ok.inj atHash)
  | null => rw [stored] at atHash; cases atHash
  | integer value => rw [stored] at atHash; cases atHash
  | real value => rw [stored] at atHash; cases atHash
  | blob bytes => rw [stored] at atHash; cases atHash

theorem initializeChainHead_on_missing {database : Database} {table : Table} {headHash : String} (missing : database.heads table = none)
    (last : (database.rows table).lastHash = .ok headHash) :
    (initializeChainHead table).on ⟨database, none⟩ =
      (.ok ⟨⟩, ⟨database.setHead table ⟨.integer (database.rows table).list.length, .text headHash⟩, none⟩) := by
  have existing : existingHead database table = .ok none := by rw [existingHead, missing]
  have previous : (previousHash table).on ⟨database, none⟩ = (.ok headHash, ⟨database, none⟩) := query_on (by rw [last]; rfl)
  have counted : (tableRowCount table).on ⟨database, none⟩ = (.ok (database.rows table).list.length, ⟨database, none⟩) := query_on rfl
  unfold initializeChainHead
  rw [bind_on_ok (query_on (by rw [existing]; rfl))]
  refine (bind_on_ok previous).trans ((bind_on_ok counted).trans ?_)
  rfl

theorem lastHash_of_rowsChain {γ : Type} {schema : Schema γ} {rows : Rows} {links : List (RowLink γ)}
    (chain : RowsChain host schema "" rows.list links) : rows.lastHash = .ok (lastHash "" links) := by
  have ends : ∀ {list : List Row} {links : List (RowLink γ)}, List.Forall₂ (Reads schema) list links →
      list.getLast?.map Row.rowHash = links.getLast?.map fun link => .text link.hash := by
    intro list links reads
    induction reads with
    | nil => rfl
    | @cons row link rest others reads atRest ih =>
      cases atRest with
      | nil => exact congrArg some (rowHash_of_reads reads)
      | cons _ _ => simpa only [List.getLast?_cons_cons] using ih
  have same := ends chain.1
  unfold Rows.lastHash lastHash
  cases last : rows.list.getLast? with
  | none =>
    rw [last] at same
    rw [Option.map_eq_none_iff.1 same.symm]
    rfl
  | some row =>
    rw [last] at same
    obtain ⟨link, atLast, hash⟩ := Option.map_eq_some_iff.1 same.symm
    rw [atLast]
    show getString 0 "row_hash" row.rowHash = _
    rw [← hash]
    rfl

theorem HeadOfRows.finds_iff {database : Database} {table : Table} {headHash : String} (head : HeadOfRows database table headHash) :
    Finds host table database false ↔ RowsBroken host table database := by
  constructor
  · rintro ⟨status, judged, invalid⟩
    obtain ⟨outcome, scanned, ⟨broken, rfl, rfl⟩ | ⟨checkedRows, previous, expected, rfl, anchored, rfl⟩⟩ := judged_schemaOf.1 judged
    · exact ⟨status, scanned⟩
    · obtain ⟨counted, links, chain, rfl⟩ := verifyRows_eq_inr.1 scanned
      have last := lastHash_of_rowsChain chain
      rw [anchoredHead, head.2] at anchored
      have same : expected = some (((database.rows table).list.length : Int), headHash) := (Except.ok.inj anchored).symm
      rw [head.1] at last
      rw [statusOf, same, Except.ok.inj last, counted] at invalid
      simp [compareHead, validTableStatus] at invalid
  · exact RowsBroken.finds

/-- Verification reports a given error for the table. -/
def ChainVerificationResult.reports (result : ChainVerificationResult) (table : Table) (error : String) : Prop :=
  ∃ status ∈ result.tables, status.table = table.name ∧ status.valid = false ∧ status.error = some error

def missingAnchor : String := "missing anchored chain head"

theorem starts_append {front : String} {first : Char} (starts : front.toList.head? = some first) (rest : String) :
    (front ++ rest).toList.head? = some first := by
  rw [String.toList_append, List.head?_append, starts]
  rfl

theorem ne_missingAnchor {message : String} {first : Char} (starts : message.toList.head? = some first) (differs : first ≠ 'm') :
    message ≠ missingAnchor := by
  rintro rfl
  exact differs (Option.some.inj starts).symm

theorem verifyRows_inl_error {γ : Type} {schema : Schema γ} {rows : List Row} {previous : String} {checked : Nat}
    {status : TableChainStatus} (broken : verifyRows host schema previous checked rows = .ok (.inl status)) :
    status.error ≠ some missingAnchor := by
  induction rows generalizing previous checked with
  | nil => cases broken
  | cons row rest ih =>
    rw [verifyRows] at broken
    split at broken
    · cases broken
    · split at broken
      · cases broken
        have starts : ("rowid " : String).toList.head? = some 'r' := rfl
        exact fun same => ne_missingAnchor (starts_append (starts_append starts _) _) (by decide) (Option.some.inj same)
      · split at broken
        · cases broken
          have starts : ("rowid " : String).toList.head? = some 'r' := rfl
          exact fun same => ne_missingAnchor (starts_append (starts_append starts _) _) (by decide) (Option.some.inj same)
        · exact ih broken

theorem Judged.error {γ : Type} {schema : Schema γ} {database : Database} {status : TableChainStatus}
    (judged : Judged host schema database status) (anchored : Anchored database schema.table) : status.error ≠ some missingAnchor := by
  obtain ⟨outcome, scanned, ⟨broken, rfl, rfl⟩ | ⟨checkedRows, previous, expected, rfl, read, rfl⟩⟩ := judged
  · exact verifyRows_inl_error scanned
  · obtain ⟨rowCount, headHash, head⟩ := anchored
    rw [anchoredHead, head] at read
    simp only at read
    cases expected with
    | none =>
      cases hash : readHead ⟨.integer rowCount, headHash⟩ with
      | error reason => rw [hash] at read; cases read
      | ok found => rw [hash] at read; cases read
    | some found =>
      obtain ⟨count, hash⟩ := found
      simp only [statusOf, compareHead]
      split
      · have starts : ("anchored row_count " : String).toList.head? = some 'a' := rfl
        exact fun same => ne_missingAnchor (starts_append (starts_append (starts_append starts _) _) _) (by decide) (Option.some.inj same)
      · split
        · exact fun same => ne_missingAnchor (show _ = some 'a' from rfl) (by decide) (Option.some.inj same)
        · exact fun same => by cases same

/-- The head of a table with rows was removed. -/
def LostAnchor (database : Database) (table : Table) : Prop :=
  database.heads table = none ∧ (database.rows table).list ≠ []

/-- Verification never reports a lost anchor, because opening the connection has made a new one from the rows: the table is invalid
only if its rows break by themselves. -/
theorem lost_anchor_unreported {before after : Database} {table : Table} {result : ChainVerificationResult}
    (lost : LostAnchor before table) (run : Leads (verifyChain host) before (.ok result) after) :
    ¬result.reports table missingAnchor ∧ (result.rejects table ↔ RowsBroken host table after) := by
  obtain ⟨opened, judged⟩ := leads_verifyChain run
  have kept := openConnection_kept opened
  constructor
  · rintro ⟨status, member, -, -, error⟩
    obtain ⟨rules, certified, sacrifices, paradoxes, atRules, atCertified, atSacrifices, atParadoxes, rfl⟩ := judged
    simp only [List.mem_cons, List.not_mem_nil, or_false] at member
    rcases member with rfl | rfl | rfl | rfl
    · exact atRules.error (kept.anchored _) error
    · exact atCertified.error (kept.anchored _) error
    · exact atSacrifices.error (kept.anchored _) error
    · exact atParadoxes.error (kept.anchored _) error
  · obtain ⟨filled, -, -, heads, atHeads⟩ := leads_openConnection opened
    obtain ⟨headHash, head⟩ := initializeChainHeads_missing atHeads table.mem_all (by rw [heads]; exact lost.1)
    rw [judged.rejects_iff table, head.finds_iff]

section

def Database.dropHead (database : Database) (table : Table) : Database :=
  { database with heads := Function.update database.heads table none }

theorem setHead_dropHead {database : Database} {table : Table} {head : Head} (present : database.heads table = some head) :
    (database.dropHead table).setHead table head = database := by
  show ({ rows := _, heads := Function.update (Function.update _ _ _) _ _ } : Database) = _
  rw [Function.update_idem, ← present, Function.update_eq_self]
  rfl

def exampleEntry : Entry := ⟨.paradoxResults, ⟨"r", "none", "No paradox violations detected", timestamp 0⟩⟩

def recordedLedger : Database := emptyLedger.appendEntry exampleHost exampleEntry "" 1

def lostLedger : Database := recordedLedger.dropHead .paradoxResults

theorem exampleEntry_appendable : Appendable exampleHost emptyLedger exampleEntry "" 1 := ⟨rfl, rfl, rfl⟩

theorem recordedLedger_written : Written exampleHost Entry.positiveZeros recordedLedger :=
  (written_emptyLedger _).appendEntry exampleEntry_appendable trivial

theorem recordedLedger_kept : Kept recordedLedger := emptyLedger_kept.append _ _ _

theorem lostLedger_missing : lostLedger.heads .paradoxResults = none := by
  show Function.update recordedLedger.heads .paradoxResults none .paradoxResults = none
  exact Function.update_self ..

theorem openConnection_lostLedger : (openConnection exampleHost).on ⟨lostLedger, none⟩ = (.ok ⟨⟩, ⟨recordedLedger, none⟩) := by
  have columns : (Table.all.forM ensureChainColumns).on ⟨lostLedger, none⟩ = (.ok ⟨⟩, ⟨lostLedger, none⟩) := rfl
  have hashed : ∀ table, Sealed lostLedger table := recordedLedger_kept.hashed
  have anchored : ∀ other, other ≠ .paradoxResults → Anchored lostLedger other := by
    intro other differs
    obtain ⟨count, hash, head⟩ := recordedLedger_kept.anchored other
    exact ⟨count, hash, by rw [show lostLedger.heads other = recordedLedger.heads other from Function.update_of_ne differs ..]; exact head⟩
  obtain ⟨links, written⟩ := recordedLedger_written .paradoxResults
  have again := setHead_dropHead written.head
  rw [← written.length] at again
  have heads : (Table.all.forM initializeChainHead).on ⟨lostLedger, none⟩ = (.ok ⟨⟩, ⟨recordedLedger, none⟩) := by
    unfold Table.all
    rw [List.forM_eq_forM]
    simp only [List.forM_cons, List.forM_nil]
    rw [bind_on_ok (initializeChainHead_on (anchored .compiledRules nofun)), bind_on_ok (initializeChainHead_on (anchored .certificates nofun)),
      bind_on_ok (initializeChainHead_on (anchored .declaredSacrifices nofun)), bind_on_ok (initializeChainHead_on_missing lostLedger_missing written.lastHash_eq)]
    exact congrArg (fun store => (Except.ok (ε := LegitimacyError) PUnit.unit, Session.mk store none)) again
  unfold openConnection ensureChainSchema
  rw [bind_on_ok (idle_on _ lostLedger), bind_on_ok (idle_on _ lostLedger), bind_on_ok (idle_on _ lostLedger),
    bind_on_ok (idle_on _ lostLedger), bind_on_ok columns, bind_on_ok (backfillIfNeeded_on (hashed _)),
    bind_on_ok (backfillIfNeeded_on (hashed _)), bind_on_ok (backfillIfNeeded_on (hashed _)), bind_on_ok (backfillIfNeeded_on (hashed _))]
  exact heads

theorem lostLedger_lost : LostAnchor lostLedger .paradoxResults := by
  refine ⟨lostLedger_missing, ?_⟩
  show ((emptyLedger.appendEntry exampleHost exampleEntry "" 1).rows exampleEntry.table).list ≠ []
  rw [appendEntry_rows]
  exact List.cons_ne_nil _ _

theorem verifyChain_lostLedger : ∃ result, Leads (verifyChain exampleHost) lostLedger (.ok result) recordedLedger ∧ result.valid = true := by
  obtain ⟨result, run, valid⟩ := recordedLedger_written.verifies recordedLedger_kept
  have verified : (verifyChain exampleHost).on ⟨lostLedger, none⟩ = (.ok result, ⟨recordedLedger, none⟩) := by
    unfold verifyChain withConnection at run ⊢
    rw [bind_on_ok (recordedLedger_kept.openConnection_on exampleHost)] at run
    rw [bind_on_ok openConnection_lostLedger]
    exact run
  exact ⟨result, on_leads verified, valid⟩

/-- A ledger with one recorded row whose head was removed is reported valid. -/
theorem lost_anchor_accepted : LostAnchor lostLedger .paradoxResults ∧ ∃ result after, Leads (verifyChain exampleHost) lostLedger (.ok result) after ∧
    result.valid = true ∧ ¬result.reports .paradoxResults missingAnchor := by
  obtain ⟨result, run, valid⟩ := verifyChain_lostLedger
  refine ⟨lostLedger_lost, result, recordedLedger, run, valid, ?_⟩
  rintro ⟨status, member, -, invalid, -⟩
  obtain ⟨-, rules, certified, sacrifices, paradoxes, -, -, -, -, rfl⟩ := leads_verifyChain run
  have sound := List.all_eq_true.1 valid status member
  rw [invalid] at sound
  cases sound

theorem lost_anchor_unreported_recorded : ∃ result, Leads (verifyChain exampleHost) lostLedger (.ok result) recordedLedger ∧
    ¬result.reports .paradoxResults missingAnchor ∧ (result.rejects .paradoxResults ↔ RowsBroken exampleHost .paradoxResults recordedLedger) := by
  obtain ⟨result, run, -⟩ := verifyChain_lostLedger
  exact ⟨result, run, lost_anchor_unreported lostLedger_lost run⟩

end

end Legitimacy.Ledger
