import Legitimacy.Ledger.Backfill

namespace Legitimacy.Ledger

open Transaction HashChain

/-- A ledger file as some version left it. A column that a table lacks is held here with its default, which every row gets when the column
is added. -/
structure LedgerFile where
  database : Database
  lacks : Table → List String
  hasHeads : Bool

/-- All tables and columns are there. -/
def LedgerFile.full (file : LedgerFile) : Bool := file.hasHeads && Table.all.all fun table => (file.lacks table).isEmpty

def LedgerFile.addColumn (file : LedgerFile) (table : Table) (column : String) : LedgerFile :=
  { file with lacks := Function.update file.lacks table ((file.lacks table).filter (· ≠ column)) }

abbrev FileStatements := Action LedgerFile LegitimacyError

/-- Statements that name all columns. On a file that lacks one the first of them cannot be prepared. -/
def onTables {α : Type} (action : Statements α) : FileStatements α := fun session =>
  if session.store.full then
    let (outcome, ended) := action.on ⟨session.store.database, session.refusal⟩
    (outcome, ⟨{ session.store with database := ended.store }, ended.refusal⟩)
  else (.error (sqlite "preparing statement" "no such column"), session)

def alterTable (table : Table) (column : String) : FileStatements Unit :=
  statement (sqlite s!"adding {column} column to '{table.name}'") fun file => .ok (⟨⟩, file.addColumn table column)

/-- The columns of `PRAGMA table_info` that are missing. -/
def lackingColumns (context : String) (table : Table) : FileStatements (List String) :=
  query (sqlite context) fun file => .ok (file.lacks table)

def addLacking (table : Table) (column : String) (lacking : List String) : FileStatements Unit :=
  if column ∈ lacking then alterTable table column else pure ⟨⟩

def ensureColumn (table : Table) (column : String) : FileStatements Unit := do
  let lacking ← lackingColumns s!"reading schema for '{table.name}'" table
  addLacking table column lacking

def ensureChainColumnsOf (table : Table) : FileStatements Unit := do
  idle (sqlite s!"reading schema for '{table.name}'")
  let lacking ← lackingColumns s!"querying schema rows for '{table.name}'" table
  addLacking table "prev_hash" lacking
  addLacking table "row_hash" lacking

def createHeads : FileStatements Unit :=
  statement (sqlite "creating ledger chain head schema") fun file => .ok (⟨⟩, { file with hasHeads := true })

def fillTables (host : Host) : FileStatements Unit := do
  onTables (backfillIfNeeded host compiledRules)
  onTables (backfillIfNeeded host certificates)
  onTables (backfillIfNeeded host declaredSacrifices)
  onTables (backfillIfNeeded host paradoxResults)
  Table.all.forM fun table => onTables (initializeChainHead table)

/-- The setup of `with_connection`. -/
def setup (host : Host) : FileStatements Unit := do
  idle (sqlite "creating ledger schema")
  ensureColumn .compiledRules "strategyproofness_json"
  ensureColumn .certificates "compiled_rule_hash"
  createHeads
  Table.all.forM ensureChainColumnsOf
  fillTables host

section

def LedgerFile.put (file : LedgerFile) (session : Session Database) : Session LedgerFile :=
  ⟨{ file with database := session.store }, session.refusal⟩

/-- On full files, statements over files do what statements over the database do. -/
def Follows {α : Type} (big : FileStatements α) (small : Statements α) : Prop :=
  ∀ file refusal, file.full = true →
    big.on ⟨file, refusal⟩ = ((small.on ⟨file.database, refusal⟩).1, file.put (small.on ⟨file.database, refusal⟩).2)

variable {α β : Type}

theorem follows_onTables (action : Statements α) : Follows (onTables action) action := by
  intro file refusal full
  show onTables action ⟨file, refusal⟩ = _
  unfold onTables
  rw [if_pos full]
  rfl

theorem Follows.pure (value : α) : Follows (pure value) (pure value) := fun _ _ _ => rfl

theorem Follows.bind {first : FileStatements α} {first' : Statements α} {next : α → FileStatements β} {next' : α → Statements β}
    (atFirst : Follows first first') (atNext : ∀ value, Follows (next value) (next' value)) : Follows (first >>= next) (first' >>= next') := by
  intro file refusal full
  rw [bind_on, bind_on, atFirst file refusal full]
  rcases first'.on ⟨file.database, refusal⟩ with ⟨outcome, between⟩
  cases outcome with
  | error failure => rfl
  | ok value => exact atNext value { file with database := between.store } between.refusal full

theorem Follows.forM {act : α → FileStatements Unit} {act' : α → Statements Unit} (each : ∀ value, Follows (act value) (act' value))
    (values : List α) : Follows (values.forM act) (values.forM act') := by
  induction values with
  | nil => exact Follows.pure _
  | cons value rest ih =>
    rw [List.forM_eq_forM, List.forM_eq_forM, List.forM_cons, List.forM_cons]
    exact (each value).bind fun _ => ih

theorem LedgerFile.full_lacks {file : LedgerFile} (full : file.full = true) (table : Table) : file.lacks table = [] := by
  rw [LedgerFile.full, Bool.and_eq_true, List.all_eq_true] at full
  exact List.isEmpty_iff.1 (full.2 table table.mem_all)

theorem follows_idle (context : String) : Follows (idle (sqlite context)) (idle (sqlite context)) := by
  intro file refusal full
  match refusal with
  | none => rfl
  | some (0, reason) => rfl
  | some (count + 1, reason) => rfl

theorem follows_lackingColumns {context : String} {table : Table} {next : List String → FileStatements β} {next' : Statements β}
    (atNext : Follows (next []) next') :
    Follows (lackingColumns context table >>= next) (idle (sqlite context) >>= fun _ => next') := by
  intro file refusal full
  have none : file.lacks table = [] := file.full_lacks full table
  match refusal with
  | some (0, reason) => rfl
  | .none =>
    show (next (file.lacks table)).on ⟨file, .none⟩ = _
    rw [none]
    exact atNext file .none full
  | some (count + 1, reason) =>
    show (next (file.lacks table)).on ⟨file, some (count, reason)⟩ = _
    rw [none]
    exact atNext file _ full

theorem follows_ensureColumn (table : Table) (column : String) :
    Follows (ensureColumn table column) (idle (sqlite s!"reading schema for '{table.name}'")) := by
  have read := @follows_lackingColumns _ s!"reading schema for '{table.name}'" table (addLacking table column) _ (Follows.pure PUnit.unit)
  rwa [bind_pure_unit] at read

theorem follows_ensureChainColumns (table : Table) : Follows (ensureChainColumnsOf table) (ensureChainColumns table) := by
  have read := @follows_lackingColumns _ s!"querying schema rows for '{table.name}'" table
    (fun lacking => do addLacking table "prev_hash" lacking; addLacking table "row_hash" lacking) _ (Follows.pure PUnit.unit)
  rw [bind_pure_unit] at read
  exact (follows_idle _).bind fun _ => read

theorem follows_createHeads : Follows createHeads (idle (sqlite "creating ledger chain head schema")) := by
  intro file refusal full
  obtain ⟨database, lacks, hasHeads⟩ := file
  have there : hasHeads = true := (Bool.and_eq_true _ _ ▸ full).1
  subst there
  match refusal with
  | none => rfl
  | some (0, reason) => rfl
  | some (count + 1, reason) => rfl

theorem follows_fillTables (host : Host) : Follows (fillTables host) (do
    backfillIfNeeded host compiledRules
    backfillIfNeeded host certificates
    backfillIfNeeded host declaredSacrifices
    backfillIfNeeded host paradoxResults
    Table.all.forM initializeChainHead) := by
  refine (follows_onTables _).bind fun _ => (follows_onTables _).bind fun _ => ?_
  refine (follows_onTables _).bind fun _ => (follows_onTables _).bind fun _ => ?_
  exact Follows.forM (fun table => follows_onTables _) _

theorem follows_setup (host : Host) : Follows (setup host) (openConnection host) := by
  refine (follows_idle _).bind fun _ => (follows_ensureColumn _ _).bind fun _ => (follows_ensureColumn _ _).bind fun _ => ?_
  exact follows_createHeads.bind fun _ => (Follows.forM follows_ensureChainColumns _).bind fun _ => follows_fillTables host

theorem leads_onTables {action : Statements α} {before after : LedgerFile} {outcome : Except LegitimacyError α}
    (run : Leads (onTables action) before outcome after) :
    (∃ failure, outcome = .error failure ∧ after = before) ∨
      ∃ database, before.full = true ∧ Leads action before.database outcome database ∧ after = { before with database := database } := by
  obtain ⟨refusal, rest, run⟩ := run
  cases full : before.full with
  | true =>
    rw [follows_onTables action before refusal full] at run
    cases run
    exact .inr ⟨_, rfl, leads_on action ⟨before.database, refusal⟩, rfl⟩
  | false =>
    change onTables action ⟨before, refusal⟩ = _ at run
    unfold onTables at run
    rw [if_neg (by rw [full]; exact Bool.false_ne_true)] at run
    cases run
    exact .inl ⟨_, rfl, rfl⟩

theorem establishes_onTables {start reached left : Database → Prop} {action : Statements α} (does : Establishes start reached left action)
    (weaker : ∀ database, start database → left database) :
    Establishes (fun file : LedgerFile => start file.database) (fun file => file.full = true ∧ reached file.database)
      (fun file => left file.database) (onTables action) := by
  intro before outcome after holds run
  rcases leads_onTables run with ⟨failure, rfl, rfl⟩ | ⟨database, full, ran, rfl⟩
  · exact .inl ⟨failure, rfl, weaker _ holds⟩
  · rcases does before.database outcome database holds ran with ⟨failure, rfl, kept⟩ | ⟨value, rfl, kept⟩
    · exact .inl ⟨failure, rfl, kept⟩
    · exact .inr ⟨value, rfl, full, kept⟩

end

section

variable (host : Host)

/-- A table on its way: its rows are sealed up to some row, and it has a head only once all are. -/
structure Migrating (database : Database) (table : Table) : Prop where
  partly : Partly host (schemaOf table) "" (database.rows table).list
  head : database.heads table = none ∨
    (∃ last, CompleteTo host (schemaOf table) "" (database.rows table).list last) ∧ ∃ headHash, HeadOfRows database table headHash

/-- A database that came from another one by no more than sealing rows and adding heads. -/
structure Halfway (original database : Database) : Prop where
  tables : ∀ table, Migrating host database table
  untied : ∀ table, (database.rows table).list.map Row.untied = (original.rows table).list.map Row.untied

def Filled (original : Database) (tables : List Table) (database : Database) : Prop :=
  Halfway host original database ∧ ∀ table ∈ tables, ∃ last, CompleteTo host (schemaOf table) "" (database.rows table).list last

def Settled (original : Database) (tables : List Table) (database : Database) : Prop :=
  Filled host original Table.all database ∧ ∀ table ∈ tables, database.heads table ≠ none

variable {host} {original : Database}

theorem establishes_backfill (tables : List Table) (table : Table) :
    Establishes (Filled host original tables) (Filled host original (tables ++ [table])) (Halfway host original)
      (backfillIfNeeded host (schemaOf table)) := by
  intro before outcome after ⟨halfway, filled⟩ run
  have partly := leads_backfillIfNeeded_partly run (by rw [schemaOf_table]; exact (halfway.tables table).partly)
  obtain ⟨heads, elsewhere⟩ := backfillIfNeeded_elsewhere run
  rw [schemaOf_table] at partly elsewhere
  have untied : ∀ other, (after.rows other).list.map Row.untied = (original.rows other).list.map Row.untied := by
    refine keeps_backfillIfNeeded host (schemaOf table) (motive := fun database =>
      ∀ other, (database.rows other).list.map Row.untied = (original.rows other).list.map Row.untied)
      (fun database rowid prevHash rowHash kept other => ?_) before outcome after halfway.untied run
    by_cases same : other = (schemaOf table).table
    · subst same
      rw [Database.setRows_rows, untied_seal]
      exact kept _
    · rw [Database.setRows_other _ _ same]
      exact kept other
  have migrating : ∀ other, Migrating host after other := by
    intro other
    by_cases same : other = table
    · subst same
      refine ⟨partly.1, ?_⟩
      rcases (halfway.tables other).head with missing | ⟨⟨last, complete⟩, found⟩
      · exact .inl (by rw [heads]; exact missing)
      · have hashed : Sealed before (schemaOf other).table := by
          rw [schemaOf_table]
          exact sealed_of_completeTo complete
        obtain rfl := keeps_backfillIfNeeded_of_sealed hashed before outcome after rfl run
        exact .inr ⟨⟨last, complete⟩, found⟩
    · have old := halfway.tables other
      have rows := elsewhere other same
      refine ⟨by rw [rows]; exact old.partly, ?_⟩
      unfold HeadOfRows
      rw [heads, rows]
      exact old.head
  cases outcome with
  | error failure => exact .inl ⟨failure, rfl, migrating, untied⟩
  | ok value =>
    refine .inr ⟨value, rfl, ⟨migrating, untied⟩, fun other member => ?_⟩
    by_cases same : other = table
    · subst same
      exact partly.2 rfl
    · rw [elsewhere other same]
      exact filled other ((List.mem_append.1 member).resolve_right fun last => same (List.mem_singleton.1 last))

theorem initializeChainHead_failed {table : Table} {before after : Database} {failure : LegitimacyError}
    (run : Leads (initializeChainHead table) before (.error failure) after) : after = before := by
  rcases leads_bind run with ⟨_, -, failed⟩ | ⟨existing, first, atQuery, rest⟩
  · exact (leads_query failed).1
  · obtain ⟨rfl, -⟩ := leads_query_ok atQuery
    split at rest
    · cases (leads_pure rest).1
    · rcases leads_bind rest with ⟨_, -, failed⟩ | ⟨headHash, second, atHash, update⟩
      · exact (leads_query failed).1
      · obtain ⟨rfl, -⟩ := leads_query_ok atHash
        rcases leads_bind update with ⟨_, -, failed⟩ | ⟨rowCount, third, atCount, setting⟩
        · exact (leads_query failed).1
        · obtain ⟨rfl, -⟩ := leads_query_ok atCount
          rcases leads_statement setting with ⟨_, -, same⟩ | ⟨_, differs, -⟩
          · exact same
          · cases differs

theorem establishes_initializeChainHead (tables : List Table) (table : Table) :
    Establishes (Settled host original tables) (Settled host original (tables ++ [table])) (Halfway host original)
      (initializeChainHead table) := by
  intro before outcome after ⟨⟨halfway, filled⟩, present⟩ run
  cases outcome with
  | error failure =>
    rw [initializeChainHead_failed run]
    exact .inl ⟨failure, rfl, halfway⟩
  | ok value =>
    refine .inr ⟨value, rfl, ?_⟩
    have complete := fun other => filled other other.mem_all
    rcases leads_initializeChainHead run with ⟨⟨count, hash, head⟩, rfl⟩ | ⟨headHash, missing, last, rfl⟩
    · refine ⟨⟨halfway, filled⟩, fun other member => ?_⟩
      rcases List.mem_append.1 member with inside | inside
      · exact present other inside
      · rw [List.mem_singleton.1 inside, head]
        exact Option.some_ne_none _
    · refine ⟨⟨⟨fun other => ⟨(halfway.tables other).partly, ?_⟩, halfway.untied⟩, filled⟩, fun other member => ?_⟩
      · by_cases same : other = table
        · subst same
          exact .inr ⟨complete other, headHash, last, Database.setHead_heads ..⟩
        · have old := (halfway.tables other).head
          unfold HeadOfRows at old ⊢
          rw [Database.setHead_other _ _ same]
          exact old
      · by_cases same : other = table
        · rw [same, Database.setHead_heads]
          exact Option.some_ne_none _
        · rw [Database.setHead_other _ _ same]
          exact present other ((List.mem_append.1 member).resolve_right fun final => same (List.mem_singleton.1 final))

theorem keeps_addLacking {motive : LedgerFile → Prop} (altered : ∀ file table column, motive file → motive (file.addColumn table column))
    (table : Table) (column : String) (lacking : List String) : Keeps motive (addLacking table column lacking) := by
  unfold addLacking
  split
  · exact Keeps.change fun file holds => altered file table column holds
  · exact Keeps.pure _

theorem keeps_ensureColumn {motive : LedgerFile → Prop} (altered : ∀ file table column, motive file → motive (file.addColumn table column))
    (table : Table) (column : String) : Keeps motive (ensureColumn table column) :=
  Keeps.query.bind fun lacking => keeps_addLacking altered table column lacking

theorem keeps_ensureChainColumns {motive : LedgerFile → Prop}
    (altered : ∀ file table column, motive file → motive (file.addColumn table column)) (table : Table) :
    Keeps motive (ensureChainColumnsOf table) :=
  Keeps.idle.bind fun _ => Keeps.query.bind fun lacking =>
    (keeps_addLacking altered table "prev_hash" lacking).bind fun _ => keeps_addLacking altered table "row_hash" lacking

theorem keeps_createHeads {motive : Database → Prop} : Keeps (fun file => motive file.database) createHeads := Keeps.change fun _ holds => holds

/-- The setup leaves a halfway database also where it is stopped, and a settled one where it ends. -/
theorem establishes_setup : Establishes (fun file => Halfway host original file.database)
    (fun file => file.full = true ∧ Settled host original Table.all file.database) (fun file => Halfway host original file.database)
    (setup host) := by
  have columns : ∀ {action : FileStatements Unit}, (Keeps (fun file => Halfway host original file.database) action) →
      Establishes (fun file => Halfway host original file.database) (fun file => Halfway host original file.database)
        (fun file => Halfway host original file.database) action := fun keeps => keeps.establishes fun _ holds => holds
  have altered : ∀ (file : LedgerFile) (table : Table) (column : String), Halfway host original file.database →
      Halfway host original (file.addColumn table column).database := fun _ _ _ holds => holds
  refine (columns Keeps.idle).bind fun _ => (columns (keeps_ensureColumn altered _ _)).bind fun _ => ?_
  refine (columns (keeps_ensureColumn altered _ _)).bind fun _ => ?_
  refine (columns keeps_createHeads).bind fun _ => ?_
  refine (columns (Keeps.forM fun table _ => keeps_ensureChainColumns altered table)).bind fun _ => ?_
  have backfill : ∀ tables table, Establishes (fun file => Filled host original tables file.database)
      (fun file => file.full = true ∧ Filled host original (tables ++ [table]) file.database) (fun file => Halfway host original file.database)
      (onTables (backfillIfNeeded host (schemaOf table))) := fun tables table =>
    establishes_onTables (establishes_backfill tables table) fun _ filled => filled.1
  refine ((backfill [] .compiledRules).of_imp fun file halfway => ⟨halfway, nofun⟩).bind fun _ => ?_
  refine ((backfill [.compiledRules] .certificates).of_imp fun file filled => filled.2).bind fun _ => ?_
  refine ((backfill [.compiledRules, .certificates] .declaredSacrifices).of_imp fun file filled => filled.2).bind fun _ => ?_
  refine ((backfill [.compiledRules, .certificates, .declaredSacrifices] .paradoxResults).of_imp fun file filled => filled.2).bind fun _ => ?_
  have head (tables : List Table) (table : Table) :
      Establishes (fun file : LedgerFile => file.full = true ∧ Settled host original tables file.database)
        (fun file => file.full = true ∧ Settled host original (tables ++ [table]) file.database)
        (fun file => Halfway host original file.database) (onTables (initializeChainHead table)) :=
    (establishes_onTables (establishes_initializeChainHead tables table) fun _ settled => settled.1.1).of_imp fun _ settled => settled.2
  have heads := @Establishes.forM _ _ _ _ (fun tables (file : LedgerFile) => file.full = true ∧ Settled host original tables file.database) _ Table.all
    (fun tables table _ => head tables table) []
  exact heads.of_imp fun file filled => ⟨filled.1, filled.2, nofun⟩

end

section

variable {host : Host}

/-- Verification of an open connection accepts the file. -/
def Accepts (host : Host) (file : LedgerFile) : Prop :=
  ∃ result, Leads (onTables (verifyTables host)) file (.ok result) file ∧ result.valid = true

theorem Migrating.judged {database : Database} {table : Table} (migrating : Migrating host database table)
    (present : database.heads table ≠ none) :
    Judged host (schemaOf table) database (validTableStatus table (database.rows table).list.length) := by
  obtain missing | ⟨⟨last, complete⟩, headHash, hash, head⟩ := migrating.head
  · exact absurd missing present
  · obtain ⟨links, chain, rfl⟩ := rowsChain_of_completeTo complete
    have same := Except.ok.inj (hash.symm.trans (lastHash_of_rowsChain chain))
    have ends : verifyRows host (schemaOf table) "" 0 (database.rows table).list =
        .ok (.inr ((database.rows table).list.length, lastHash "" links)) :=
      verifyRows_eq_inr.2 ⟨(Nat.zero_add _).symm, links, chain, rfl⟩
    refine judged_schemaOf.2 ⟨_, ends, .inr ⟨_, _, some ((database.rows table).list.length, headHash), rfl, ?_, ?_⟩⟩
    · rw [anchoredHead, head]
      rfl
    · rw [statusOf, schemaOf_table]
      simp [compareHead, same]

theorem accepts_of_settled {original : Database} {file : LedgerFile} (full : file.full = true)
    (settled : Settled host original Table.all file.database) : Accepts host file := by
  have judged := fun table : Table => (settled.1.1.tables table).judged (settled.2 table table.mem_all)
  have run := verifyTables_on ⟨_, _, _, _, judged .compiledRules, judged .certificates, judged .declaredSacrifices, judged .paradoxResults, rfl⟩
  have ran := follows_onTables (verifyTables host) file none full
  rw [run] at ran
  exact ⟨_, on_leads ran, rfl⟩

theorem isEmptyText_of_reads {γ : Type} {schema : Schema γ} {row : Row} {link : RowLink γ} (reads : Reads schema row link)
    (filled : link.hash ≠ "") : isEmptyText row.rowHash = false := by
  rw [rowHash_of_reads reads]
  exact beq_eq_false_iff_ne.2 filled

/-- A table that verification finds valid has an anchored head, and no blank row. -/
theorem kept_of_judged {database : Database} {table : Table} {status : TableChainStatus} (judged : Judged host (schemaOf table) database status)
    (valid : status.valid = true) : Anchored database table ∧ Sealed database table := by
  obtain ⟨outcome, scanned, ⟨broken, rfl, rfl⟩ | ⟨checkedRows, previous, expected, rfl, read, rfl⟩⟩ := judged_schemaOf.1 judged
  · rw [(verifyRows_inl_invalid scanned).1] at valid
    cases valid
  · obtain ⟨-, links, ⟨reads, chain⟩, -⟩ := verifyRows_eq_inr.1 scanned
    constructor
    · unfold anchoredHead at read
      cases head : database.heads table with
      | none =>
        rw [head] at read
        obtain rfl := (Except.ok.inj read).symm
        cases valid
      | some found =>
        obtain ⟨rowCount, headHash⟩ := found
        rw [head] at read
        cases rowCount with
        | integer count => exact ⟨count, headHash, head⟩
        | null => cases read
        | real value => cases read
        | text value => cases read
        | blob bytes => cases read
    · intro row member
      obtain ⟨place, inside, atPlace⟩ := List.mem_iff_getElem.1 member
      have paired := List.forall₂_iff_get.1 reads
      have within : place < links.length := paired.1 ▸ inside
      have sealedLink := chain.seals_mem (links.get ⟨place, within⟩) (List.get_mem ..)
      have read := paired.2 place inside within
      rw [List.get_eq_getElem, atPlace] at read
      refine isEmptyText_of_reads read fun empty => ?_
      rw [empty, Seals, sealedBy, Bool.or_eq_true] at sealedLink
      rcases sealedLink with own | legacy
      · exact chainHash_ne_empty _ _ _ (beq_iff_eq.1 own).symm
      · obtain ⟨there, hash⟩ := (Option.any_eq_true_iff_get _ _).1 legacy
        exact chainHash_ne_empty _ _ _ (beq_iff_eq.1 hash).symm

theorem kept_of_accepts {file : LedgerFile} (accepted : Accepts host file) : file.full = true ∧ Kept file.database := by
  obtain ⟨result, run, valid⟩ := accepted
  rcases leads_onTables run with ⟨_, differs, -⟩ | ⟨database, full, verified, -⟩
  · cases differs
  · obtain ⟨rfl, rules, certified, sacrifices, paradoxes, atRules, atCertified, atSacrifices, atParadoxes, rfl⟩ := leads_verifyTables verified
    have all := List.all_eq_true.1 valid
    have kept : ∀ table, Anchored file.database table ∧ Sealed file.database table := by
      intro table
      cases table with
      | compiledRules => exact kept_of_judged atRules (all rules (by simp))
      | certificates => exact kept_of_judged atCertified (all certified (by simp))
      | declaredSacrifices => exact kept_of_judged atSacrifices (all sacrifices (by simp))
      | paradoxResults => exact kept_of_judged atParadoxes (all paradoxes (by simp))
    exact ⟨full, fun table => (kept table).1, fun table => (kept table).2⟩

/-- A ledger from before the chain: no row has a hash, and no table a head. -/
structure Legacy (file : LedgerFile) : Prop where
  blank : ∀ table, ∀ row ∈ (file.database.rows table).list, isEmptyText row.rowHash = true
  unanchored : ∀ table, file.database.heads table = none

/-- Runs of the setup one after another, each stopped at any of its statements or ended. -/
inductive SetUp (host : Host) : LedgerFile → LedgerFile → Prop
  | none {file} : SetUp host file file
  | again {file reached next outcome} : SetUp host file reached → Leads (setup host) reached outcome next → SetUp host file next

theorem Legacy.halfway {file : LedgerFile} (legacy : Legacy file) : Halfway host file.database file.database :=
  ⟨fun table => ⟨partly_of_blank (legacy.blank table), .inl (legacy.unanchored table)⟩, fun _ => rfl⟩

theorem SetUp.halfway {file reached : LedgerFile} (runs : SetUp host file reached) (legacy : Legacy file) :
    Halfway host file.database reached.database := by
  induction runs with
  | none => exact legacy.halfway
  | again _ run ih =>
    rcases establishes_setup _ _ _ ih run with ⟨_, -, kept⟩ | ⟨_, -, -, settled⟩
    · exact kept
    · exact settled.1.1

/-- However often the setup of a legacy ledger was interrupted, the run that completes it leaves every row what it says, and a chain that
verification accepts; and the setup of a ledger that verification accepts changes nothing. -/
theorem migration (host : Host) :
    (∀ legacy reached after, Legacy legacy → SetUp host legacy reached → Leads (setup host) reached (.ok ⟨⟩) after →
      (∀ table, (after.database.rows table).list.map Row.untied = (legacy.database.rows table).list.map Row.untied) ∧ Accepts host after) ∧
    ∀ file outcome after, Accepts host file → Leads (setup host) file outcome after → after = file := by
  constructor
  · intro legacy reached after old runs complete
    rcases establishes_setup _ _ _ (runs.halfway old) complete with ⟨_, differs, -⟩ | ⟨_, -, full, settled⟩
    · cases differs
    · exact ⟨settled.1.1.untied, accepts_of_settled full settled⟩
  · intro file outcome after accepted run
    obtain ⟨full, kept⟩ := kept_of_accepts accepted
    obtain ⟨refusal, rest, run⟩ := run
    rw [follows_setup host file refusal full] at run
    have same := kept.openConnection_same (leads_on (openConnection host) ⟨file.database, refusal⟩)
    have store := congrArg (fun ended => ended.2.store) run
    simp only [LedgerFile.put, same] at store
    exact store.symm

end

section

def legacyParadox (rowid : Int) (description : String) : Row :=
  ⟨rowid, [.text "r", .text "none", .text description, .text "2024-01-01T00:00:00Z"], .text "", .text ""⟩

/-- Two paradox results from before the chain, in tables without its columns. -/
def legacyFile : LedgerFile where
  database := Database.fresh.setRows .paradoxResults ⟨[legacyParadox 1 "a", legacyParadox 4 "b"], by simp [legacyParadox]⟩
  lacks _ := ["prev_hash", "row_hash"]
  hasHeads := false

theorem legacyFile_legacy : Legacy legacyFile := by
  refine ⟨fun table row member => ?_, fun _ => rfl⟩
  change row ∈ ((Database.fresh.setRows _ _).rows table).list at member
  by_cases same : table = .paradoxResults
  · subst same
    rw [Database.setRows_rows] at member
    rcases List.mem_cons.1 member with rfl | inside
    · rfl
    · rw [List.mem_singleton.1 inside]
      rfl
  · rw [Database.setRows_other _ _ same] at member
    cases member

/-- The file after a run that was stopped between its two rows. -/
def stoppedFile : LedgerFile := ((setup exampleHost).on ⟨legacyFile, some (29, "interrupted")⟩).2.store

theorem stoppedFile_setUp : SetUp exampleHost legacyFile stoppedFile :=
  .again .none (leads_on (setup exampleHost) ⟨legacyFile, some (29, "interrupted")⟩)

theorem migration_legacyFile : ∃ after, Leads (setup exampleHost) stoppedFile (.ok ⟨⟩) after ∧
    (∀ table, (after.database.rows table).list.map Row.untied = (legacyFile.database.rows table).list.map Row.untied) ∧
    Accepts exampleHost after ∧ ∀ outcome later, Leads (setup exampleHost) after outcome later → later = after := by
  obtain ⟨⟨⟩, completes⟩ := @ExceptRun.exists_of_toBool _ _ ((setup exampleHost).on ⟨stoppedFile, none⟩).1 (by decide +kernel)
  have complete := leads_on (setup exampleHost) ⟨stoppedFile, none⟩
  rw [completes] at complete
  obtain ⟨untied, accepted⟩ := (migration exampleHost).1 _ _ _ legacyFile_legacy stoppedFile_setUp complete
  exact ⟨_, complete, untied, accepted, fun outcome later => (migration exampleHost).2 _ outcome later accepted⟩

end

end Legitimacy.Ledger
