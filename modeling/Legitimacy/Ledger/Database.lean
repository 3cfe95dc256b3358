import Legitimacy.Error
import Legitimacy.Transaction
import Mathlib.Data.List.Pairwise
import Mathlib.Logic.Function.Basic
import Mathlib.Algebra.GroupWithZero.Nat
import Mathlib.Algebra.Group.Int.Defs

namespace Legitimacy.Ledger

open Transaction

inductive SqlValue
  | null
  | integer (value : Int)
  | real (value : Float)
  | text (value : String)
  | blob (bytes : List UInt8)

def SqlValue.typeName : SqlValue → String
  | .null => "Null"
  | .integer _ => "Integer"
  | .real _ => "Real"
  | .text _ => "Text"
  | .blob _ => "Blob"

def SqlValue.ofReal (value : Float) : SqlValue :=
  if value.isNaN then .null else if value == 0 then .real 0 else .real value

def SqlValue.ofBool (value : Bool) : SqlValue := .integer (if value then 1 else 0)

def invalidColumnType (index : Nat) (name : String) (value : SqlValue) : String :=
  s!"Invalid column type {value.typeName} at index: {index}, name: {name}"

def getString (index : Nat) (name : String) : SqlValue → Except String String
  | .text value => .ok value
  | other => .error (invalidColumnType index name other)

def getInt (index : Nat) (name : String) : SqlValue → Except String Int
  | .integer value => .ok value
  | other => .error (invalidColumnType index name other)

def getBool (index : Nat) (name : String) (value : SqlValue) : Except String Bool :=
  (getInt index name value).map fun number => number != 0

def getReal (index : Nat) (name : String) : SqlValue → Except String Float
  | .real value => .ok value
  | .integer value => .ok (.ofInt value)
  | other => .error (invalidColumnType index name other)

inductive Table
  | compiledRules
  | certificates
  | declaredSacrifices
  | paradoxResults
deriving DecidableEq

def Table.all : List Table := [.compiledRules, .certificates, .declaredSacrifices, .paradoxResults]

def Table.name : Table → String
  | .compiledRules => "compiled_rules"
  | .certificates => "certificates"
  | .declaredSacrifices => "declared_sacrifices"
  | .paradoxResults => "paradox_results"

structure Row where
  rowid : Int
  columns : List SqlValue
  prevHash : SqlValue
  rowHash : SqlValue

structure Rows where
  list : List Row
  ordered : list.Pairwise fun earlier later => earlier.rowid < later.rowid

structure Head where
  rowCount : SqlValue
  headHash : SqlValue

structure Database where
  rows : Table → Rows
  heads : Table → Option Head

def Rows.empty : Rows := ⟨[], List.Pairwise.nil⟩

def Database.fresh : Database := ⟨fun _ => .empty, fun _ => none⟩

def Database.setRows (database : Database) (table : Table) (rows : Rows) : Database :=
  { database with rows := Function.update database.rows table rows }

def Database.setHead (database : Database) (table : Table) (head : Head) : Database :=
  { database with heads := Function.update database.heads table (some head) }

variable (database : Database)

@[simp] theorem Database.setRows_rows (table : Table) (rows : Rows) :
    (database.setRows table rows).rows table = rows := Function.update_self ..

theorem Database.setRows_other {table other : Table} (rows : Rows) (differs : other ≠ table) :
    (database.setRows table rows).rows other = database.rows other := Function.update_of_ne differs ..

@[simp] theorem Database.setHead_heads (table : Table) (head : Head) :
    (database.setHead table head).heads table = some head := Function.update_self ..

theorem Database.setHead_other {table other : Table} (head : Head) (differs : other ≠ table) :
    (database.setHead table head).heads other = database.heads other := Function.update_of_ne differs ..

def largestRowid : Int := 2 ^ 63 - 1

def Rows.rowids (rows : Rows) : List Int := rows.list.map Row.rowid

def Rows.nextRowid (rows : Rows) (freeRowid : List Int → Option Int) : Option Int :=
  match rows.list.getLast? with
  | none => some 1
  | some last =>
    if last.rowid < largestRowid then some (last.rowid + 1)
    else (freeRowid rows.rowids).filter fun rowid => 1 ≤ rowid && rowid ≤ largestRowid && !rows.rowids.contains rowid

theorem ordered_insert {rows : List Row} (ordered : rows.Pairwise fun earlier later => earlier.rowid < later.rowid) (row : Row) :
    (rows.filter (·.rowid < row.rowid) ++ row :: rows.filter (row.rowid < ·.rowid)).Pairwise
      fun earlier later => earlier.rowid < later.rowid := by
  rw [List.pairwise_append]
  refine ⟨ordered.filter _, List.pairwise_cons.2 ⟨fun later member => ?_, ordered.filter _⟩, fun earlier member later other => ?_⟩
  · simpa using (List.mem_filter.1 member).2
  · have below : earlier.rowid < row.rowid := by simpa using (List.mem_filter.1 member).2
    rcases List.mem_cons.1 other with rfl | other
    · exact below
    · have above : row.rowid < later.rowid := by simpa using (List.mem_filter.1 other).2
      omega

def Rows.insert (rows : Rows) (row : Row) : Rows := ⟨_, ordered_insert rows.ordered row⟩

def Row.seal (row : Row) (prevHash rowHash : String) : Row := { row with prevHash := .text prevHash, rowHash := .text rowHash }

def Row.setRowHash (row : Row) (rowHash : String) : Row := { row with rowHash := .text rowHash }

theorem ordered_map {rows : List Row} (ordered : rows.Pairwise fun earlier later => earlier.rowid < later.rowid) {change : Row → Row}
    (same : ∀ row, (change row).rowid = row.rowid) : (rows.map change).Pairwise fun earlier later => earlier.rowid < later.rowid := by
  rw [List.pairwise_map]
  exact ordered.imp fun below => by rwa [same, same]

def changeAt (rowid : Int) (change : Row → Row) (row : Row) : Row := if row.rowid = rowid then change row else row

theorem rowid_changeAt {rowid : Int} {change : Row → Row} (same : ∀ row, (change row).rowid = row.rowid) (row : Row) :
    (changeAt rowid change row).rowid = row.rowid := by
  unfold changeAt
  split
  · exact same row
  · rfl

def Rows.setRowHash (rows : Rows) (rowid : Int) (rowHash : String) : Rows :=
  ⟨rows.list.map (changeAt rowid (·.setRowHash rowHash)), ordered_map rows.ordered (rowid_changeAt fun _ => rfl)⟩

def Rows.seal (rows : Rows) (rowid : Int) (prevHash rowHash : String) : Rows :=
  ⟨rows.list.map (changeAt rowid (·.seal prevHash rowHash)), ordered_map rows.ordered (rowid_changeAt fun _ => rfl)⟩

theorem Rows.insert_last (rows : Rows) {row : Row} (last : ∀ other ∈ rows.list, other.rowid < row.rowid) :
    (rows.insert row).list = rows.list ++ [row] := by
  have below : rows.list.filter (·.rowid < row.rowid) = rows.list := List.filter_eq_self.2 fun other member => by simpa using last other member
  have above : rows.list.filter (row.rowid < ·.rowid) = [] :=
    List.filter_eq_nil_iff.2 fun other member => by simpa using (last other member).le
  show rows.list.filter (·.rowid < row.rowid) ++ row :: rows.list.filter (row.rowid < ·.rowid) = _
  rw [below, above]

theorem Rows.length_insert (rows : Rows) {row : Row} (fresh : row.rowid ∉ rows.rowids) :
    (rows.insert row).list.length = rows.list.length + 1 := by
  have split : (rows.list.filter (row.rowid < ·.rowid)) = rows.list.filter fun other => !decide (other.rowid < row.rowid) :=
    List.filter_congr fun other member => by
      have differs : other.rowid ≠ row.rowid := fun same => fresh (same ▸ List.mem_map_of_mem member)
      rw [← decide_not, decide_eq_decide]
      omega
  show (rows.list.filter (·.rowid < row.rowid) ++ row :: rows.list.filter (row.rowid < ·.rowid)).length = _
  rw [split, List.length_append, List.length_cons]
  have total := List.length_eq_length_filter_add (l := rows.list) fun other => decide (other.rowid < row.rowid)
  omega

end Legitimacy.Ledger
