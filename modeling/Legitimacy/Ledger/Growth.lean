import Legitimacy.Ledger.Kept

namespace Legitimacy.Ledger

open Transaction

abbrev Content : Table → Type
  | .compiledRules => CompiledRuleContent
  | .certificates => CertificateContent
  | .declaredSacrifices => DeclaredSacrificeChainContent
  | .paradoxResults => ParadoxResultContent

def schemaOf : (table : Table) → Schema (Content table)
  | .compiledRules => compiledRules
  | .certificates => certificates
  | .declaredSacrifices => declaredSacrifices
  | .paradoxResults => paradoxResults

@[simp] theorem schemaOf_table (table : Table) : (schemaOf table).table = table := by
  cases table <;> rfl

structure Entry where
  table : Table
  content : Content table

/-- The row an entry can become: tied to the last hash, at the next rowid. -/
structure Appendable (host : Host) (database : Database) (entry : Entry) (prevHash : String) (rowid : Int) : Prop where
  last : (database.rows entry.table).lastHash = .ok prevHash
  full : nullColumn (schemaOf entry.table) ((schemaOf entry.table).params entry.content) = none
  next : (database.rows entry.table).nextRowid host.freeRowid = some rowid

def Database.appendEntry (database : Database) (host : Host) (entry : Entry) (prevHash : String) (rowid : Int) : Database :=
  database.append host (schemaOf entry.table) entry.content prevHash rowid

/-- One database grows into another by the given entries, in their order. -/
inductive Grows (host : Host) : Database → List Entry → Database → Prop
  | nil {database} : Grows host database [] database
  | cons {database after entry rest prevHash rowid} : Appendable host database entry prevHash rowid →
      Grows host (database.appendEntry host entry prevHash rowid) rest after → Grows host database (entry :: rest) after

variable {host : Host}

theorem Grows.append {first second third : Database} {entries more : List Entry} (start : Grows host first entries second)
    (rest : Grows host second more third) : Grows host first (entries ++ more) third := by
  induction start with
  | nil => exact rest
  | cons appendable _ ih => exact .cons appendable (ih rest)

theorem Grows.single {before : Database} {entry : Entry} {prevHash : String} {rowid : Int}
    (appendable : Appendable host before entry prevHash rowid) :
    Grows host before [entry] (before.appendEntry host entry prevHash rowid) := .cons appendable .nil

theorem grows_appendRow (table : Table) {content : Content table} {before after : Database}
    (run : Leads (appendRow host (schemaOf table) content) before (.ok ⟨⟩) after) : Grows host before [⟨table, content⟩] after := by
  obtain ⟨prevHash, rowid, last, full, next, rfl⟩ := leads_appendRow run
  rw [schemaOf_table] at last next
  have appendable : Appendable host before ⟨table, content⟩ prevHash rowid := ⟨last, full, next⟩
  exact .single appendable

theorem grows_forM {α : Type} {act : α → Statements Unit} {entry : α → List Entry} {values : List α} {before after : Database}
    (each : ∀ value before after, Leads (act value) before (.ok ⟨⟩) after → Grows host before (entry value) after)
    (run : Leads (values.forM act) before (.ok ⟨⟩) after) : Grows host before (values.flatMap entry) after := by
  induction values generalizing before with
  | nil =>
    rw [(leads_pure run).2]
    exact .nil
  | cons value rest ih =>
    rw [List.forM_eq_forM, List.forM_cons] at run
    obtain ⟨⟨⟩, between, atFirst, atRest⟩ := leads_bind_ok run
    rw [List.flatMap_cons]
    exact (each value before between atFirst).append (ih atRest)

/-- One transaction of a recording operation. -/
inductive Recording
  | compiledRule (rule : CompiledRule)
  | certificate (issued : Certificate)
  | declaredSacrifices (issued : DeclaredSacrificesCertificate) (declaredAt : String)
  | paradoxResult (content : ParadoxResultContent)

def Recording.run (host : Host) : Recording → Statements Unit
  | .compiledRule rule => insertCompiledRule host rule
  | .certificate issued => insertCertificate host issued
  | .declaredSacrifices issued declaredAt => insertDeclaredSacrifices host issued declaredAt
  | .paradoxResult content => insertParadoxRow host content

def Recording.entries (host : Host) : Recording → List Entry
  | .compiledRule rule => [⟨.compiledRules, compiledRuleContent host rule⟩]
  | .certificate issued => [⟨.certificates, certificateContent host issued⟩]
  | .declaredSacrifices issued declaredAt =>
    issued.sacrifices.map fun sacrifice => ⟨.declaredSacrifices, declaredSacrificeContent host issued declaredAt sacrifice⟩
  | .paradoxResult content => [⟨.paradoxResults, content⟩]

theorem leads_insert {context : String} {body : Statements Unit} {before after : Database} {outcome : Except LegitimacyError Unit}
    (run : Leads (immediate context body) before outcome after) :
    (∃ failure, outcome = .error failure ∧ after = before) ∨ (outcome = .ok ⟨⟩ ∧ Leads body before (.ok ⟨⟩) after) := by
  rcases leads_transaction run with failed | ⟨⟨⟩, passed, body⟩
  · exact .inl failed
  · exact .inr ⟨passed, body⟩

theorem Recording.leads_run {recording : Recording} {before after : Database} {outcome : Except LegitimacyError Unit}
    (run : Leads (recording.run host) before outcome after) :
    (∃ failure, outcome = .error failure ∧ after = before) ∨ (outcome = .ok ⟨⟩ ∧ Grows host before (recording.entries host) after) := by
  cases recording with
  | compiledRule rule =>
    rcases leads_insert run with failed | ⟨passed, body⟩
    · exact .inl failed
    · exact .inr ⟨passed, grows_appendRow .compiledRules body⟩
  | certificate issued =>
    rcases leads_insert run with failed | ⟨passed, body⟩
    · exact .inl failed
    · exact .inr ⟨passed, grows_appendRow .certificates body⟩
  | declaredSacrifices issued declaredAt =>
    rcases leads_insert run with failed | ⟨passed, body⟩
    · exact .inl failed
    · refine .inr ⟨passed, ?_⟩
      show Grows host before (issued.sacrifices.map _) after
      rw [List.map_eq_flatMap]
      exact grows_forM (fun sacrifice first second step => grows_appendRow .declaredSacrifices step) body
  | paradoxResult content =>
    rcases leads_insert run with failed | ⟨passed, body⟩
    · exact .inl failed
    · exact .inr ⟨passed, grows_appendRow .paradoxResults body⟩

section

variable {database : Database} {entry : Entry} {prevHash : String} {rowid : Int}

@[simp] theorem appendEntry_rows : (database.appendEntry host entry prevHash rowid).rows entry.table =
    (database.rows entry.table).insert (sealedRow host (schemaOf entry.table) entry.content prevHash rowid) := by
  show (database.setRows (schemaOf entry.table).table _).rows entry.table = _
  rw [schemaOf_table, Database.setRows_rows]

@[simp] theorem appendEntry_heads : (database.appendEntry host entry prevHash rowid).heads entry.table =
    some ⟨.integer ((database.appendEntry host entry prevHash rowid).rows entry.table).list.length,
      .text (chainHash prevHash rowid ((schemaOf entry.table).contentText host entry.content))⟩ := by
  rw [appendEntry_rows]
  show ((database.setRows _ _).setHead (schemaOf entry.table).table _).heads entry.table = _
  rw [schemaOf_table, Database.setHead_heads]

theorem appendEntry_rows_other {other : Table} (differs : other ≠ entry.table) :
    (database.appendEntry host entry prevHash rowid).rows other = database.rows other := by
  show (database.setRows (schemaOf entry.table).table _).rows other = _
  rw [schemaOf_table, Database.setRows_other _ _ differs]

theorem appendEntry_heads_other {other : Table} (differs : other ≠ entry.table) :
    (database.appendEntry host entry prevHash rowid).heads other = database.heads other := by
  show ((database.setRows _ _).setHead (schemaOf entry.table).table _).heads other = _
  rw [schemaOf_table, Database.setHead_other _ _ differs]
  rfl

end

theorem Grows.kept {before after : Database} {entries : List Entry} (grows : Grows host before entries after) (kept : Kept before) :
    Kept after := by
  induction grows with
  | nil => exact kept
  | cons _ _ ih => exact ih (kept.append _ _ _)

end Legitimacy.Ledger
