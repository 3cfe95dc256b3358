import Legitimacy.Ledger.Record

namespace Legitimacy.Ledger

open ExceptRun (mapError_eq_ok)
open Transaction

theorem Rows.insert_setRowHash (rows : Rows) (row : Row) (rowHash : String) :
    (rows.insert row).setRowHash row.rowid rowHash = rows.insert (row.setRowHash rowHash) := by
  have untouched : ∀ part : List Row, (∀ other ∈ part, other.rowid ≠ row.rowid) →
      part.map (changeAt row.rowid (·.setRowHash rowHash)) = part := by
    intro part differ
    exact (List.map_congr_left fun other member => if_neg (differ other member)).trans (List.map_id part)
  have before := untouched (rows.list.filter (·.rowid < row.rowid)) fun other member => by
    have below : other.rowid < row.rowid := by simpa using (List.mem_filter.1 member).2
    exact below.ne
  have behind := untouched (rows.list.filter (row.rowid < ·.rowid)) fun other member => by
    have above : row.rowid < other.rowid := by simpa using (List.mem_filter.1 member).2
    exact above.ne'
  have whole : ((rows.insert row).setRowHash row.rowid rowHash).list = (rows.insert (row.setRowHash rowHash)).list := by
    show (rows.list.filter (·.rowid < row.rowid) ++ row :: rows.list.filter (row.rowid < ·.rowid)).map _ = _
    rw [List.map_append, List.map_cons, before, behind, changeAt, if_pos rfl]
    rfl
  cases same : (rows.insert row).setRowHash row.rowid rowHash
  cases same' : rows.insert (row.setRowHash rowHash)
  simp only [same, same'] at whole
  simp only [whole]

section

variable {γ : Type} (host : Host) (schema : Schema γ)

def sealedRow (content : γ) (prevHash : String) (rowid : Int) : Row :=
  ⟨rowid, schema.params content, .text prevHash, .text (chainHash prevHash rowid (schema.contentText host content))⟩

def Database.append (database : Database) (content : γ) (prevHash : String) (rowid : Int) : Database :=
  let rows := (database.rows schema.table).insert (sealedRow host schema content prevHash rowid)
  (database.setRows schema.table rows).setHead schema.table
    ⟨.integer rows.list.length, .text (chainHash prevHash rowid (schema.contentText host content))⟩

theorem insertRow_eq_ok {content : γ} {prevHash : String} {before after : Database} {rowid : Int} :
    insertRow host schema content prevHash before = .ok (rowid, after) ↔
      nullColumn schema (schema.params content) = none ∧ (before.rows schema.table).nextRowid host.freeRowid = some rowid ∧
      after = before.setRows schema.table ((before.rows schema.table).insert ⟨rowid, schema.params content, .text prevHash, .text ""⟩) := by
  unfold insertRow
  dsimp only
  cases refused : nullColumn schema (schema.params content) with
  | some reason => simp
  | none =>
    cases next : (before.rows schema.table).nextRowid host.freeRowid with
    | none => simp
    | some found =>
      simp only [Except.ok.injEq, Prod.mk.injEq, Option.some.injEq, true_and]
      constructor
      · rintro ⟨rfl, rfl⟩
        exact ⟨rfl, rfl⟩
      · rintro ⟨rfl, rfl⟩
        exact ⟨rfl, rfl⟩

variable {host schema}

theorem leads_updateChainHead {table : Table} {headHash : String} {before after : Database}
    (run : Leads (updateChainHead table headHash) before (.ok ⟨⟩) after) :
    after = before.setHead table ⟨.integer (before.rows table).list.length, .text headHash⟩ := by
  obtain ⟨rowCount, between, atCount, atHead⟩ := leads_bind_ok run
  obtain ⟨rfl, counted⟩ := leads_query_ok atCount
  rw [leads_change_ok atHead, ← Except.ok.inj counted]

theorem leads_appendRow {content : γ} {before after : Database} (run : Leads (appendRow host schema content) before (.ok ⟨⟩) after) :
    ∃ prevHash rowid, (before.rows schema.table).lastHash = .ok prevHash ∧ nullColumn schema (schema.params content) = none ∧
      (before.rows schema.table).nextRowid host.freeRowid = some rowid ∧ after = before.append host schema content prevHash rowid := by
  obtain ⟨prevHash, first, atPrevious, insertion⟩ := leads_bind_ok run
  obtain ⟨rfl, previous⟩ := leads_query_ok atPrevious
  obtain ⟨rowid, inserted, atInsert, finish⟩ := leads_bind_ok insertion
  obtain ⟨full, next, rfl⟩ := (insertRow_eq_ok host schema).1 (leads_statement_ok atInsert)
  obtain ⟨⟨⟩, finalized, atHash, atHead⟩ := leads_bind_ok finish
  refine ⟨prevHash, rowid, mapError_eq_ok.1 previous, full, next, ?_⟩
  rw [leads_updateChainHead atHead, leads_change_ok atHash]
  simp only [Database.setRows_rows]
  have whole := Rows.insert_setRowHash (first.rows schema.table) ⟨rowid, schema.params content, .text prevHash, .text ""⟩
    (chainHash prevHash rowid (schema.contentText host content))
  simp only at whole
  rw [whole]
  show ({ rows := Function.update (Function.update _ _ _) _ _, heads := _ } : Database).setHead _ _ = _
  rw [Function.update_idem]
  rfl

theorem not_mem_of_nextRowid {rows : Rows} {freeRowid : List Int → Option Int} {rowid : Int}
    (next : rows.nextRowid freeRowid = some rowid) : rowid ∉ rows.rowids := by
  unfold Rows.nextRowid at next
  cases last : rows.list.getLast? with
  | none =>
    rw [List.getLast?_eq_none_iff] at last
    simp [Rows.rowids, last]
  | some final =>
    simp only [last] at next
    split at next
    · obtain ⟨others, shape⟩ := List.getLast?_eq_some_iff.1 last
      have same := Option.some.inj next
      have ordered := rows.ordered
      rw [shape, List.pairwise_append] at ordered
      intro member
      obtain ⟨other, inside, equal⟩ := List.mem_map.1 member
      rw [shape] at inside
      rcases List.mem_append.1 inside with inside | inside
      · have below := ordered.2.2 other inside final (by simp)
        omega
      · rw [List.mem_singleton.1 inside] at equal
        omega
    · intro member
      obtain ⟨-, allowed⟩ := Option.filter_eq_some_iff.1 next
      simp only [Bool.and_eq_true, Bool.not_eq_eq_eq_not, Bool.not_true] at allowed
      have absent : rowid ∉ rows.rowids := by
        intro inside
        rw [List.contains_iff_mem.2 inside] at allowed
        exact Bool.noConfusion allowed.2
      exact absent member

theorem length_append {content : γ} {before : Database} {prevHash : String} {rowid : Int}
    (next : (before.rows schema.table).nextRowid host.freeRowid = some rowid) :
    ((before.append host schema content prevHash rowid).rows schema.table).list.length = (before.rows schema.table).list.length + 1 := by
  show (((before.setRows schema.table _).rows schema.table).list).length = _
  rw [Database.setRows_rows]
  exact Rows.length_insert _ (not_mem_of_nextRowid next)

end

section

variable {motive : Database → Prop} (host : Host)

theorem keeps_initializeChainHead (anchored : ∀ database table head, motive database → motive (database.setHead table head)) (table : Table) :
    Keeps motive (initializeChainHead table) := by
  refine Keeps.query.bind fun existing => ?_
  split
  · exact Keeps.pure _
  · exact Keeps.query.bind fun headHash => Keeps.query.bind fun rowCount => Keeps.change fun database => anchored database table _

theorem keeps_backfillIfNeeded {γ : Type} (schema : Schema γ)
    (refilled : ∀ database rowid prevHash rowHash, motive database →
      motive (database.setRows schema.table ((database.rows schema.table).seal rowid prevHash rowHash))) :
    Keeps motive (backfillIfNeeded host schema) := by
  have loop : ∀ rows previous, Keeps motive (backfillRows host schema previous rows) := by
    intro rows
    induction rows with
    | nil => exact fun previous => Keeps.pure _
    | cons row rest ih =>
      exact fun previous => Keeps.query.bind fun content =>
        (Keeps.change fun database => refilled database _ _ _).bind fun _ => ih _
  refine Keeps.query.bind fun needed => ?_
  split
  · exact Keeps.idle.bind fun _ => Keeps.query.bind fun rows => loop rows ""
  · exact Keeps.pure _

theorem keeps_openConnection (anchored : ∀ database table head, motive database → motive (database.setHead table head))
    (refilled : ∀ database table rowid prevHash rowHash, motive database →
      motive (database.setRows table ((database.rows table).seal rowid prevHash rowHash))) :
    Keeps motive (openConnection host) := by
  refine Keeps.idle.bind fun _ => Keeps.idle.bind fun _ => Keeps.idle.bind fun _ => Keeps.idle.bind fun _ => ?_
  refine (Keeps.forM fun table _ => Keeps.idle.bind fun _ => Keeps.idle).bind fun _ => ?_
  refine (keeps_backfillIfNeeded host compiledRules fun database => refilled database _).bind fun _ => ?_
  refine (keeps_backfillIfNeeded host certificates fun database => refilled database _).bind fun _ => ?_
  refine (keeps_backfillIfNeeded host declaredSacrifices fun database => refilled database _).bind fun _ => ?_
  refine (keeps_backfillIfNeeded host paradoxResults fun database => refilled database _).bind fun _ => ?_
  exact Keeps.forM fun table _ => keeps_initializeChainHead anchored table

end

/-- What of the rows stays as it is when they are tied anew. -/
def Row.untied (row : Row) : Int × List SqlValue := (row.rowid, row.columns)

theorem untied_seal (rows : Rows) (rowid : Int) (prevHash rowHash : String) :
    (rows.seal rowid prevHash rowHash).list.map Row.untied = rows.list.map Row.untied := by
  show (rows.list.map _).map _ = _
  rw [List.map_map]
  refine List.map_congr_left fun row member => ?_
  show Row.untied (changeAt rowid _ row) = _
  unfold changeAt
  split
  · rfl
  · rfl

theorem openConnection_untied (host : Host) {before after : Database} {outcome : Except LegitimacyError Unit}
    (run : Leads (openConnection host) before outcome after) (table : Table) :
    (after.rows table).list.map Row.untied = (before.rows table).list.map Row.untied := by
  refine keeps_openConnection host (motive := fun database =>
    (database.rows table).list.map Row.untied = (before.rows table).list.map Row.untied) (fun database other head kept => ?_)
    (fun database other rowid prevHash rowHash kept => ?_) before outcome after rfl run
  · exact kept
  · by_cases same : table = other
    · subst same
      rw [Database.setRows_rows, untied_seal]
      exact kept
    · rw [Database.setRows_other _ _ same]
      exact kept

end Legitimacy.Ledger
