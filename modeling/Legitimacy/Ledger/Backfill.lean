import Legitimacy.Ledger.LostAnchor

namespace Legitimacy.Ledger

open ExceptRun (mapError_eq_ok)
open Transaction HashChain

section

variable {γ : Type} (host : Host) (schema : Schema γ)

/-- The row is tied to the previous hash as backfilling ties it. -/
def Tied (previous : String) (row : Row) (rowHash : String) : Prop :=
  ∃ content, schema.read row.columns = .ok content ∧ rowHash = chainHash previous row.rowid (schema.contentText host content) ∧
    row.prevHash = .text previous ∧ row.rowHash = .text rowHash

def CompleteTo : String → List Row → String → Prop
  | previous, [], last => last = previous
  | previous, row :: rest, last => ∃ rowHash, Tied host schema previous row rowHash ∧ CompleteTo rowHash rest last

/-- Sealed up to some row, and blank from there on. -/
def Partly : String → List Row → Prop
  | _, [] => True
  | previous, row :: rest =>
    (∃ rowHash, Tied host schema previous row rowHash ∧ Partly rowHash rest) ∨ ∀ other ∈ row :: rest, isEmptyText other.rowHash = true

variable {host schema}

theorem partly_of_blank {previous : String} {rows : List Row} (blank : ∀ row ∈ rows, isEmptyText row.rowHash = true) :
    Partly host schema previous rows := by
  cases rows with
  | nil => trivial
  | cons row rest => exact .inr blank

theorem completeTo_snoc {previous between last : String} {front : List Row} {row : Row} (complete : CompleteTo host schema previous front between)
    (tied : Tied host schema between row last) : CompleteTo host schema previous (front ++ [row]) last := by
  induction front generalizing previous with
  | nil =>
    obtain rfl : between = previous := complete
    exact ⟨last, tied, rfl⟩
  | cons first rest ih =>
    obtain ⟨rowHash, atFirst, others⟩ := complete
    exact ⟨rowHash, atFirst, ih others⟩

theorem partly_append {previous between : String} {front rest : List Row} (complete : CompleteTo host schema previous front between)
    (partly : Partly host schema between rest) : Partly host schema previous (front ++ rest) := by
  induction front generalizing previous with
  | nil =>
    obtain rfl : between = previous := complete
    exact partly
  | cons first others ih =>
    obtain ⟨rowHash, atFirst, behind⟩ := complete
    exact .inl ⟨rowHash, atFirst, ih behind⟩

theorem completeTo_of_sealed {previous : String} {rows : List Row} (partly : Partly host schema previous rows)
    (sealed : ∀ row ∈ rows, isEmptyText row.rowHash = false) : ∃ last, CompleteTo host schema previous rows last := by
  induction rows generalizing previous with
  | nil => exact ⟨previous, rfl⟩
  | cons row rest ih =>
    rcases partly with ⟨rowHash, tied, behind⟩ | blank
    · obtain ⟨last, others⟩ := ih behind fun other member => sealed other (List.mem_cons_of_mem row member)
      exact ⟨last, rowHash, tied, others⟩
    · have filled := sealed row List.mem_cons_self
      rw [blank row List.mem_cons_self] at filled
      cases filled

theorem sealed_of_completeTo {previous last : String} {rows : List Row} (complete : CompleteTo host schema previous rows last) :
    ∀ row ∈ rows, isEmptyText row.rowHash = false := by
  induction rows generalizing previous with
  | nil => exact nofun
  | cons row rest ih =>
    obtain ⟨rowHash, ⟨content, -, hash, -, stored⟩, others⟩ := complete
    intro other member
    rcases List.mem_cons.1 member with rfl | inside
    · rw [stored, hash]
      exact beq_eq_false_iff_ne.2 (chainHash_ne_empty _ _ _)
    · exact ih others other inside

theorem rowsChain_of_completeTo {previous last : String} {rows : List Row} (complete : CompleteTo host schema previous rows last) :
    ∃ links, RowsChain host schema previous rows links ∧ last = lastHash previous links := by
  induction rows generalizing previous with
  | nil =>
    obtain rfl : last = previous := complete
    exact ⟨[], ⟨.nil, trivial⟩, rfl⟩
  | cons row rest ih =>
    obtain ⟨rowHash, ⟨content, read, hash, prev, stored⟩, others⟩ := complete
    obtain ⟨links, ⟨reads, chain⟩, ends⟩ := ih others
    refine ⟨⟨previous, (row.rowid, content), rowHash⟩ :: links, ⟨.cons ⟨?_, rfl⟩ reads, rfl, ?_, chain⟩, ?_⟩
    · unfold readRow
      rw [read, prev, stored]
      rfl
    · simp [Seals, sealedBy, hash]
    · rw [ends, lastHash_cons]

theorem seal_split {rows : Rows} {front rest : List Row} {row : Row} (shape : rows.list = front ++ row :: rest) (prevHash rowHash : String) :
    (rows.seal row.rowid prevHash rowHash).list = front ++ row.seal prevHash rowHash :: rest := by
  have ordered := rows.ordered
  rw [shape, List.pairwise_append] at ordered
  obtain ⟨-, behind, across⟩ := ordered
  have before : ∀ other ∈ front, other.rowid ≠ row.rowid := fun other member => (across other member row List.mem_cons_self).ne
  have after : ∀ other ∈ rest, other.rowid ≠ row.rowid := fun other member => ((List.pairwise_cons.1 behind).1 other member).ne'
  have untouched : ∀ part : List Row, (∀ other ∈ part, other.rowid ≠ row.rowid) →
      part.map (changeAt row.rowid (·.seal prevHash rowHash)) = part := by
    intro part differ
    exact (List.map_congr_left fun other member => if_neg (differ other member)).trans (List.map_id part)
  show rows.list.map _ = _
  rw [shape, List.map_append, List.map_cons, untouched front before, untouched rest after, changeAt, if_pos rfl]

/-- The loop of a backfill, wherever it stops, leaves rows that are sealed up to some row; where it ends, all are. -/
theorem leads_backfillRows_partly {rows front : List Row} {previous : String} {before after : Database} {outcome : Except LegitimacyError Unit}
    (run : Leads (backfillRows host schema previous rows) before outcome after) (shape : (before.rows schema.table).list = front ++ rows)
    (complete : CompleteTo host schema "" front previous) (partly : Partly host schema previous rows) :
    Partly host schema "" (after.rows schema.table).list ∧
      (outcome = .ok ⟨⟩ → ∃ last, CompleteTo host schema "" (after.rows schema.table).list last) := by
  induction rows generalizing front previous before with
  | nil =>
    obtain ⟨rfl, rfl⟩ := leads_pure run
    rw [shape, List.append_nil]
    have whole := partly_append complete partly
    rw [List.append_nil] at whole
    exact ⟨whole, fun _ => ⟨previous, complete⟩⟩
  | cons row rest ih =>
    have stopped : Partly host schema "" (before.rows schema.table).list := by
      rw [shape]
      exact partly_append complete partly
    rcases leads_bind run with ⟨failure, rfl, failed⟩ | ⟨content, first, atRow, update⟩
    · rw [(leads_query failed).1]
      exact ⟨stopped, nofun⟩
    · obtain ⟨rfl, reading⟩ := leads_query_ok atRow
      have read := mapError_eq_ok.1 reading
      rcases leads_bind update with ⟨failure, rfl, failed⟩ | ⟨⟨⟩, second, atUpdate, others⟩
      · rcases leads_statement failed with ⟨_, -, same⟩ | ⟨_, differs, -⟩
        · rw [same]
          exact ⟨stopped, nofun⟩
        · cases differs
      · have changed := leads_change_ok atUpdate
        have tied : Tied host schema previous (row.seal previous (chainHash previous row.rowid (schema.contentText host content)))
            (chainHash previous row.rowid (schema.contentText host content)) := ⟨content, read, rfl, rfl, rfl⟩
        refine @ih (front ++ [row.seal previous _]) _ _ others ?_ (completeTo_snoc complete tied) ?_
        · rw [changed, Database.setRows_rows, seal_split shape, List.append_assoc]
          rfl
        · rcases partly with ⟨rowHash, ⟨content', read', hash, -, -⟩, behind⟩ | blank
          · obtain rfl : content' = content := Except.ok.inj (read'.symm.trans read)
            rw [← hash]
            exact behind
          · exact partly_of_blank fun other member => blank other (List.mem_cons_of_mem row member)

theorem leads_backfillIfNeeded_partly {before after : Database} {outcome : Except LegitimacyError Unit}
    (run : Leads (backfillIfNeeded host schema) before outcome after) (partly : Partly host schema "" (before.rows schema.table).list) :
    Partly host schema "" (after.rows schema.table).list ∧
      (outcome = .ok ⟨⟩ → ∃ last, CompleteTo host schema "" (after.rows schema.table).list last) := by
  rcases leads_bind run with ⟨failure, rfl, failed⟩ | ⟨needed, first, atQuery, rest⟩
  · rw [(leads_query failed).1]
    exact ⟨partly, nofun⟩
  · obtain ⟨rfl, read⟩ := leads_query_ok atQuery
    have answer := Except.ok.inj read
    cases needed with
    | false =>
      obtain ⟨rfl, rfl⟩ := leads_pure rest
      refine ⟨partly, fun _ => completeTo_of_sealed partly fun row member => ?_⟩
      simpa using List.any_eq_false.1 answer row member
    | true =>
      rcases leads_bind rest with ⟨failure, rfl, failed⟩ | ⟨_, second, atPrepare, selection⟩
      · rw [leads_idle failed]
        exact ⟨partly, nofun⟩
      · obtain rfl := leads_idle atPrepare
        rcases leads_bind selection with ⟨failure, rfl, failed⟩ | ⟨rows, third, atRows, loop⟩
        · rw [(leads_query failed).1]
          exact ⟨partly, nofun⟩
        · obtain ⟨rfl, selected⟩ := leads_query_ok atRows
          obtain rfl := Except.ok.inj selected
          exact @leads_backfillRows_partly _ _ _ _ [] _ _ _ _ loop rfl rfl partly

end

end Legitimacy.Ledger
