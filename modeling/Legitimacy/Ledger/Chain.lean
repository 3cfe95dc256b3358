import Legitimacy.Ledger.Content

namespace Legitimacy.Ledger

open Transaction

abbrev Statements := Action Database LegitimacyError

def sqlite (context : String) (reason : String) : LegitimacyError := .sqlite context reason

def immediate {α : Type} (context : String) (body : Statements α) : Statements α :=
  transaction (sqlite s!"starting {context} transaction") (sqlite s!"committing {context} transaction") body

def deferred {α : Type} (context : String) (body : Statements α) : Statements α := immediate context body

def Rows.lastHash (rows : Rows) : Except String String :=
  match rows.list.getLast? with
  | none => .ok ""
  | some last => getString 0 "row_hash" last.rowHash

def previousHash (table : Table) : Statements String :=
  query (sqlite s!"reading previous hash from '{table.name}'") fun database =>
    (database.rows table).lastHash.mapError (sqlite s!"reading previous hash from '{table.name}'")

def tableRowCount (table : Table) : Statements Nat :=
  query (sqlite s!"counting rows in '{table.name}'") fun database => .ok (database.rows table).list.length

def updateChainHead (table : Table) (headHash : String) : Statements Unit := do
  let rowCount ← tableRowCount table
  statement (sqlite s!"updating chain head for '{table.name}'") fun database =>
    .ok (⟨⟩, database.setHead table ⟨.integer rowCount, .text headHash⟩)

def existingHead (database : Database) (table : Table) : Except String (Option Int) :=
  match database.heads table with
  | none => .ok none
  | some head => (getInt 0 "row_count" head.rowCount).map some

def initializeChainHead (table : Table) : Statements Unit := do
  let existing ← query (sqlite s!"checking chain head for '{table.name}'") fun database =>
    (existingHead database table).mapError (sqlite s!"checking chain head for '{table.name}'")
  if existing.isSome then pure ⟨⟩
  else do
    let headHash ← previousHash table
    updateChainHead table headHash

section

variable {γ : Type} (host : Host) (schema : Schema γ)

def isNull : SqlValue → Bool
  | .null => true
  | _ => false

/-- The message for the first column a NOT NULL constraint refuses. -/
def nullColumn (values : List SqlValue) : Option String :=
  ((schema.columns.zip values).find? fun column => isNull column.2).map fun column =>
    s!"NOT NULL constraint failed: {schema.table.name}.{column.1}"

def insertRow (content : γ) (prevHash : String) (database : Database) : Except LegitimacyError (Int × Database) :=
  let rows := database.rows schema.table
  match nullColumn schema (schema.params content) with
  | some reason => .error (sqlite s!"recording {schema.recorded}" reason)
  | none =>
    match rows.nextRowid host.freeRowid with
    | none => .error (sqlite s!"recording {schema.recorded}" "database or disk is full")
    | some rowid =>
      .ok (rowid, database.setRows schema.table (rows.insert ⟨rowid, schema.params content, .text prevHash, .text ""⟩))

def Schema.contentText (content : γ) : String := (schema.contentJson content).compact host.floatText

def Schema.legacyContentText (content : γ) : Option String := (schema.legacyContentJson content).map (·.compact host.floatText)

/-- The body every recording operation runs in its transaction. -/
def appendRow (content : γ) : Statements Unit := do
  let prevHash ← previousHash schema.table
  let rowid ← statement (sqlite s!"recording {schema.recorded}") (insertRow host schema content prevHash)
  let rowHash := chainHash prevHash rowid (schema.contentText host content)
  statement (sqlite s!"finalizing {schema.label} hash") fun database =>
    .ok (⟨⟩, database.setRows schema.table ((database.rows schema.table).setRowHash rowid rowHash))
  updateChainHead schema.table rowHash

end

section

variable {γ : Type} (host : Host) (schema : Schema γ)

/-- The columns of the chain are part of every table here, so that there is nothing to add. -/
def ensureChainColumns (table : Table) : Statements Unit := do
  idle (sqlite s!"reading schema for '{table.name}'")
  idle (sqlite s!"querying schema rows for '{table.name}'")

def isEmptyText : SqlValue → Bool
  | .text value => value == ""
  | _ => false

def tableNeedsBackfill (table : Table) : Statements Bool :=
  query (sqlite s!"checking chain completeness for '{table.name}'") fun database =>
    .ok ((database.rows table).list.any fun row => isEmptyText row.rowHash)

def backfillRows : String → List Row → Statements Unit
  | _, [] => pure ⟨⟩
  | previous, row :: rest => do
    let content ← query (sqlite s!"reading {schema.label} chain backfill row") fun _ =>
      (schema.read row.columns).mapError (sqlite s!"reading {schema.label} chain backfill row")
    let rowHash := chainHash previous row.rowid (schema.contentText host content)
    statement (sqlite s!"updating {schema.label} chain backfill") fun database =>
      .ok (⟨⟩, database.setRows schema.table ((database.rows schema.table).seal row.rowid previous rowHash))
    backfillRows rowHash rest

def backfillChain : Statements Unit := do
  idle (sqlite s!"preparing {schema.label} chain backfill")
  let rows ← query (sqlite s!"running {schema.label} chain backfill") fun database => .ok (database.rows schema.table).list
  backfillRows host schema "" rows

def backfillIfNeeded : Statements Unit := do
  let needed ← tableNeedsBackfill schema.table
  if needed then backfillChain host schema else pure ⟨⟩

end

def ensureChainSchema (host : Host) : Statements Unit := do
  idle (sqlite "creating ledger chain head schema")
  Table.all.forM ensureChainColumns
  backfillIfNeeded host compiledRules
  backfillIfNeeded host certificates
  backfillIfNeeded host declaredSacrifices
  backfillIfNeeded host paradoxResults
  Table.all.forM initializeChainHead

section

structure TableChainStatus where
  table : String
  valid : Bool
  checkedRows : Nat
  error : Option String
deriving DecidableEq

structure ChainVerificationResult where
  valid : Bool
  tables : List TableChainStatus
deriving DecidableEq

def validTableStatus (table : Table) (checkedRows : Nat) : TableChainStatus := ⟨table.name, true, checkedRows, none⟩

def invalidTableStatus (table : Table) (checkedRows : Nat) (error : String) : TableChainStatus :=
  ⟨table.name, false, checkedRows, some error⟩

def compareHead (table : Table) (checkedRows : Nat) (observedHeadHash : String) : Option (Int × String) → Option TableChainStatus
  | none => some (invalidTableStatus table checkedRows "missing anchored chain head")
  | some (expectedRows, expectedHash) =>
    if expectedRows ≠ checkedRows then
      some (invalidTableStatus table checkedRows s!"anchored row_count {expectedRows} does not match observed {checkedRows}")
    else if expectedHash ≠ observedHeadHash then
      some (invalidTableStatus table checkedRows "anchored head_hash does not match observed head")
    else none

def readHead (head : Head) : Except String (Int × String) := do
  let rowCount ← getInt 0 "row_count" head.rowCount
  let headHash ← getString 1 "head_hash" head.headHash
  .ok (rowCount, headHash)

def anchoredHead (database : Database) (table : Table) : Except String (Option (Int × String)) :=
  match database.heads table with
  | none => .ok none
  | some head => (readHead head).map some

def verifyChainHead (table : Table) (checkedRows : Nat) (observedHeadHash : String) : Statements (Option TableChainStatus) := do
  let expected ← query (sqlite s!"reading chain head for '{table.name}'") fun database =>
    (anchoredHead database table).mapError (sqlite s!"reading chain head for '{table.name}'")
  pure (compareHead table checkedRows observedHeadHash expected)

variable {γ : Type} (host : Host) (schema : Schema γ)

def sealedBy (prevHash : String) (rowid : Int) (content : γ) (rowHash : String) : Bool :=
  rowHash == chainHash prevHash rowid (schema.contentText host content) ||
    (schema.legacyContentText host content).any fun legacy => rowHash == chainHash prevHash rowid legacy

def readRow (row : Row) : Except String (γ × String × String) := do
  let content ← schema.read row.columns
  let prevHash ← getString (schema.columns.length + 1) "prev_hash" row.prevHash
  let rowHash ← getString (schema.columns.length + 2) "row_hash" row.rowHash
  .ok (content, prevHash, rowHash)

/-- The rows from a given one on: the status of the first that breaks the chain, or the number of rows and the last hash. -/
def verifyRows : String → Nat → List Row → Except String (TableChainStatus ⊕ (Nat × String))
  | previous, checkedRows, [] => .ok (.inr (checkedRows, previous))
  | previous, checkedRows, row :: rest =>
    match readRow schema row with
    | .error reason => .error reason
    | .ok (content, prevHash, rowHash) =>
      if prevHash ≠ previous then
        .ok (.inl (invalidTableStatus schema.table checkedRows s!"rowid {row.rowid} has mismatched prev_hash"))
      else if sealedBy host schema prevHash row.rowid content rowHash = false then
        .ok (.inl (invalidTableStatus schema.table checkedRows s!"rowid {row.rowid} has mismatched row_hash"))
      else verifyRows rowHash (checkedRows + 1) rest

def concludeTable : TableChainStatus ⊕ (Nat × String) → Statements TableChainStatus
  | .inl status => pure status
  | .inr (checkedRows, previous) => do
    let status ← verifyChainHead schema.table checkedRows previous
    pure (status.getD (validTableStatus schema.table checkedRows))

def verifyTableChain : Statements TableChainStatus := do
  idle (sqlite s!"preparing {schema.label} chain verification")
  let outcome ← query (sqlite s!"running {schema.label} chain verification") fun database =>
    (verifyRows host schema "" 0 (database.rows schema.table).list).mapError (sqlite s!"reading {schema.label} chain verification row")
  concludeTable schema outcome

end

def verifyCompiledRulesChain (host : Host) : Statements TableChainStatus := verifyTableChain host compiledRules

def verifyCertificatesChain (host : Host) : Statements TableChainStatus := verifyTableChain host certificates

def verifyDeclaredSacrificesChain (host : Host) : Statements TableChainStatus := verifyTableChain host declaredSacrifices

def verifyParadoxResultsChain (host : Host) : Statements TableChainStatus := verifyTableChain host paradoxResults

def verifyTables (host : Host) : Statements ChainVerificationResult :=
  deferred "verifying ledger chain" do
    let rules ← verifyCompiledRulesChain host
    let certified ← verifyCertificatesChain host
    let sacrifices ← verifyDeclaredSacrificesChain host
    let paradoxes ← verifyParadoxResultsChain host
    let tables := [rules, certified, sacrifices, paradoxes]
    pure ⟨tables.all TableChainStatus.valid, tables⟩

end Legitimacy.Ledger
