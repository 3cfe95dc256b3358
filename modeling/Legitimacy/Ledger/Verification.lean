import Legitimacy.HashChain
import Legitimacy.Ledger.Append

namespace Legitimacy.Ledger

open ExceptRun (mapError_eq_ok)
open Transaction HashChain

section

variable {γ : Type} (host : Host) (schema : Schema γ)

abbrev RowLink (γ : Type) : Type := Link String (Int × γ)

def Reads (row : Row) (link : RowLink γ) : Prop :=
  readRow schema row = .ok (link.entry.2, link.previous, link.hash) ∧ link.entry.1 = row.rowid

def Seals (prevHash : String) (entry : Int × γ) (rowHash : String) : Prop := sealedBy host schema prevHash entry.1 entry.2 rowHash = true

/-- The rows read as a chain from a given hash on. -/
def RowsChain (previous : String) (rows : List Row) (links : List (RowLink γ)) : Prop :=
  List.Forall₂ (Reads schema) rows links ∧ IsChain (Seals host schema) previous links

variable {host schema}

/-- Verification gets to the end of the rows exactly when they are a chain. -/
theorem verifyRows_eq_inr {rows : List Row} {previous last : String} {checked count : Nat} :
    verifyRows host schema previous checked rows = .ok (.inr (count, last)) ↔
      count = checked + rows.length ∧ ∃ links, RowsChain host schema previous rows links ∧ last = lastHash previous links := by
  induction rows generalizing previous checked with
  | nil =>
    simp only [verifyRows, Except.ok.injEq, Sum.inr.injEq, Prod.mk.injEq, List.length_nil, Nat.add_zero]
    constructor
    · rintro ⟨rfl, rfl⟩
      exact ⟨rfl, [], ⟨.nil, trivial⟩, rfl⟩
    · rintro ⟨rfl, links, ⟨reads, -⟩, rfl⟩
      cases reads
      exact ⟨rfl, rfl⟩
  | cons row rest ih =>
    rw [verifyRows]
    cases atRow : readRow schema row with
    | error reason =>
      constructor
      · nofun
      · rintro ⟨-, links, ⟨reads, -⟩, -⟩
        obtain ⟨link, others, ⟨read, -⟩, -, -⟩ := List.forall₂_cons_left_iff.1 reads
        rw [atRow] at read
        cases read
    | ok found =>
      obtain ⟨content, prevHash, rowHash⟩ := found
      simp only
      constructor
      · intro passed
        split at passed
        · cases passed
        · rename_i tied
          split at passed
          · cases passed
          · rename_i bound
            obtain ⟨counted, links, ⟨reads, chain⟩, ends⟩ := ih.1 passed
            refine ⟨by simp only [List.length_cons]; omega, ⟨prevHash, (row.rowid, content), rowHash⟩ :: links, ⟨?_, ?_⟩, ?_⟩
            · exact .cons ⟨atRow, rfl⟩ reads
            · exact ⟨not_not.1 tied, by simpa [Seals] using bound, chain⟩
            · rw [ends, lastHash_cons]
      · rintro ⟨counted, links, ⟨reads, chain⟩, rfl⟩
        obtain ⟨link, others, ⟨read, at_⟩, readsRest, rfl⟩ := List.forall₂_cons_left_iff.1 reads
        obtain ⟨tied, bound, chained⟩ := chain
        rw [atRow] at read
        simp only [Except.ok.injEq, Prod.mk.injEq] at read
        obtain ⟨rfl, rfl, rfl⟩ := read
        rw [Seals, at_] at bound
        rw [if_neg (not_not.2 tied), if_neg (by rw [bound]; exact Bool.noConfusion)]
        refine ih.2 ⟨?_, others, ⟨readsRest, chained⟩, lastHash_cons link others⟩
        simp only [List.length_cons] at counted
        omega

/-- A break stays where it is when rows are added behind. -/
theorem verifyRows_append_inl {rows more : List Row} {previous : String} {checked : Nat} {status : TableChainStatus}
    (broken : verifyRows host schema previous checked rows = .ok (.inl status)) :
    verifyRows host schema previous checked (rows ++ more) = .ok (.inl status) := by
  induction rows generalizing previous checked with
  | nil => cases broken
  | cons row rest ih =>
    rw [List.cons_append]
    rw [verifyRows] at broken ⊢
    cases atRow : readRow schema row with
    | error reason =>
      rw [atRow] at broken
      cases broken
    | ok found =>
      obtain ⟨content, prevHash, rowHash⟩ := found
      rw [atRow] at broken
      simp only at broken ⊢
      split at broken
      · rename_i apart
        rw [if_pos apart]
        exact broken
      · rename_i tied
        rw [if_neg tied]
        split at broken
        · rename_i unbound
          rw [if_pos unbound]
          exact broken
        · rename_i bound
          rw [if_neg bound]
          exact ih broken

/-- Behind rows that chain, verification goes on with the next row. -/
theorem verifyRows_append_inr {rows more : List Row} {previous last : String} {checked count : Nat}
    (chained : verifyRows host schema previous checked rows = .ok (.inr (count, last))) :
    verifyRows host schema previous checked (rows ++ more) = verifyRows host schema last count more := by
  induction rows generalizing previous checked with
  | nil =>
    cases chained
    rfl
  | cons row rest ih =>
    rw [List.cons_append]
    rw [verifyRows] at chained ⊢
    cases atRow : readRow schema row with
    | error reason =>
      rw [atRow] at chained
      cases chained
    | ok found =>
      obtain ⟨content, prevHash, rowHash⟩ := found
      rw [atRow] at chained
      simp only at chained ⊢
      split at chained
      · cases chained
      · rename_i tied
        rw [if_neg tied]
        split at chained
        · cases chained
        · rename_i bound
          rw [if_neg bound]
          exact ih chained

theorem verifyRows_inl_invalid {rows : List Row} {previous : String} {checked : Nat} {status : TableChainStatus}
    (broken : verifyRows host schema previous checked rows = .ok (.inl status)) : status.valid = false ∧ status.table = schema.table.name := by
  induction rows generalizing previous checked with
  | nil => cases broken
  | cons row rest ih =>
    rw [verifyRows] at broken
    split at broken
    · cases broken
    · split at broken
      · cases broken
        exact ⟨rfl, rfl⟩
      · split at broken
        · cases broken
          exact ⟨rfl, rfl⟩
        · exact ih broken

end

section

variable {γ : Type} {host : Host} {schema : Schema γ}

def statusOf (schema : Schema γ) (expected : Option (Int × String)) : TableChainStatus ⊕ (Nat × String) → TableChainStatus
  | .inl status => status
  | .inr (checkedRows, previous) =>
    (compareHead schema.table checkedRows previous expected).getD (validTableStatus schema.table checkedRows)

def Judged (host : Host) (schema : Schema γ) (database : Database) (status : TableChainStatus) : Prop :=
  ∃ outcome, verifyRows host schema "" 0 (database.rows schema.table).list = .ok outcome ∧
    ((∃ broken, outcome = .inl broken ∧ status = broken) ∨
      ∃ checkedRows previous expected, outcome = .inr (checkedRows, previous) ∧ anchoredHead database schema.table = .ok expected ∧
        status = statusOf schema expected outcome)

theorem verifyTableChain_on {database : Database} {status : TableChainStatus} (judged : Judged host schema database status) :
    (verifyTableChain host schema).on ⟨database, none⟩ = (.ok status, ⟨database, none⟩) := by
  obtain ⟨outcome, rows, head⟩ := judged
  unfold verifyTableChain
  rw [bind_on_ok (idle_on _ database), bind_on_ok (query_on (by rw [rows]; rfl))]
  rcases head with ⟨broken, rfl, rfl⟩ | ⟨checkedRows, previous, expected, rfl, anchored, rfl⟩
  · rfl
  · have read : (verifyChainHead schema.table checkedRows previous).on ⟨database, none⟩ =
        (.ok (compareHead schema.table checkedRows previous expected), ⟨database, none⟩) := by
      unfold verifyChainHead
      rw [bind_on_ok (query_on (by rw [anchored]; rfl))]
      rfl
    unfold concludeTable
    rw [bind_on_ok read]
    rfl

theorem leads_verifyTableChain {before after : Database} {status : TableChainStatus}
    (run : Leads (verifyTableChain host schema) before (.ok status) after) : after = before ∧ Judged host schema before status := by
  obtain ⟨_, first, atFirst, selection⟩ := leads_bind_ok run
  obtain rfl := leads_idle atFirst
  obtain ⟨outcome, second, atRows, conclusion⟩ := leads_bind_ok selection
  obtain ⟨rfl, rows⟩ := leads_query_ok atRows
  have found := mapError_eq_ok.1 rows
  cases outcome with
  | inl broken =>
    obtain ⟨same, rfl⟩ := leads_pure conclusion
    exact ⟨rfl, .inl broken, found, .inl ⟨broken, rfl, Except.ok.inj same⟩⟩
  | inr ends =>
    obtain ⟨checkedRows, previous⟩ := ends
    obtain ⟨compared, third, atHead, finish⟩ := leads_bind_ok conclusion
    obtain ⟨expected, fourth, atQuery, comparison⟩ := leads_bind_ok atHead
    obtain ⟨rfl, read⟩ := leads_query_ok atQuery
    obtain ⟨same, rfl⟩ := leads_pure comparison
    obtain ⟨same', rfl⟩ := leads_pure finish
    refine ⟨rfl, .inr (checkedRows, previous), found, .inr ⟨checkedRows, previous, expected, rfl, mapError_eq_ok.1 read, ?_⟩⟩
    rw [statusOf, ← Except.ok.inj same]
    exact Except.ok.inj same'

end

structure AllJudged (host : Host) (database : Database) (result : ChainVerificationResult) : Prop where
  statuses : ∃ rules certified sacrifices paradoxes, Judged host compiledRules database rules ∧ Judged host certificates database certified ∧
    Judged host declaredSacrifices database sacrifices ∧ Judged host paradoxResults database paradoxes ∧
    result = ⟨[rules, certified, sacrifices, paradoxes].all TableChainStatus.valid, [rules, certified, sacrifices, paradoxes]⟩

theorem verifyTables_on {host : Host} {database : Database} {result : ChainVerificationResult} (judged : AllJudged host database result) :
    (verifyTables host).on ⟨database, none⟩ = (.ok result, ⟨database, none⟩) := by
  obtain ⟨rules, certified, sacrifices, paradoxes, atRules, atCertified, atSacrifices, atParadoxes, rfl⟩ := judged.statuses
  unfold verifyTables verifyCompiledRulesChain verifyCertificatesChain verifyDeclaredSacrificesChain verifyParadoxResultsChain
  refine transaction_on ?_
  rw [bind_on_ok (verifyTableChain_on atRules), bind_on_ok (verifyTableChain_on atCertified), bind_on_ok (verifyTableChain_on atSacrifices),
    bind_on_ok (verifyTableChain_on atParadoxes)]
  rfl

theorem leads_verifyTables {host : Host} {before after : Database} {result : ChainVerificationResult}
    (run : Leads (verifyTables host) before (.ok result) after) : after = before ∧ AllJudged host before result := by
  rcases leads_transaction run with ⟨_, differs, -⟩ | ⟨value, same, body⟩
  · cases differs
  · cases same
    obtain ⟨rules, first, runRules, behindRules⟩ := leads_bind_ok body
    obtain ⟨rfl, atRules⟩ := leads_verifyTableChain runRules
    obtain ⟨certified, second, runCertified, behindCertified⟩ := leads_bind_ok behindRules
    obtain ⟨rfl, atCertified⟩ := leads_verifyTableChain runCertified
    obtain ⟨sacrifices, third, runSacrifices, behindSacrifices⟩ := leads_bind_ok behindCertified
    obtain ⟨rfl, atSacrifices⟩ := leads_verifyTableChain runSacrifices
    obtain ⟨paradoxes, fourth, runParadoxes, finish⟩ := leads_bind_ok behindSacrifices
    obtain ⟨rfl, atParadoxes⟩ := leads_verifyTableChain runParadoxes
    obtain ⟨made, rfl⟩ := leads_pure finish
    exact ⟨rfl, ⟨rules, certified, sacrifices, paradoxes, atRules, atCertified, atSacrifices, atParadoxes, Except.ok.inj made⟩⟩

end Legitimacy.Ledger
