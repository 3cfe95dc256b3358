import Legitimacy.Ledger.Append

namespace Legitimacy.Ledger

open ExceptRun (mapError_eq_ok)
open Transaction

def Anchored (database : Database) (table : Table) : Prop :=
  ∃ rowCount headHash, database.heads table = some ⟨.integer rowCount, headHash⟩

def Sealed (database : Database) (table : Table) : Prop :=
  ∀ row ∈ (database.rows table).list, isEmptyText row.rowHash = false

structure Kept (database : Database) : Prop where
  anchored : ∀ table, Anchored database table
  hashed : ∀ table, Sealed database table

section

variable {database : Database}

theorem initializeChainHead_on {table : Table} (anchored : Anchored database table) :
    (initializeChainHead table).on ⟨database, none⟩ = (.ok ⟨⟩, ⟨database, none⟩) := by
  obtain ⟨rowCount, headHash, head⟩ := anchored
  unfold initializeChainHead
  have existing : existingHead database table = .ok (some rowCount) := by
    rw [existingHead, head]
    rfl
  rw [bind_on_ok (query_on (by rw [existing]; rfl))]
  rfl

theorem keeps_initializeChainHead_of_anchored {table : Table} (anchored : Anchored database table) :
    Keeps (· = database) (initializeChainHead table) := by
  intro before outcome after same run
  subst same
  obtain ⟨rowCount, headHash, head⟩ := anchored
  rcases leads_bind run with ⟨failure, -, failed⟩ | ⟨existing, between, atQuery, rest⟩
  · exact (leads_query failed).1
  · obtain ⟨rfl, read⟩ := leads_query_ok atQuery
    have answer := mapError_eq_ok.1 read
    rw [existingHead, head] at answer
    have found : existing = some rowCount := (Except.ok.inj answer).symm
    rw [found] at rest
    exact (leads_pure rest).2

variable {γ : Type} {host : Host} {schema : Schema γ}

theorem any_eq_false_of_sealed {table : Table} (hashed : Sealed database table) :
    ((database.rows table).list.any fun row => isEmptyText row.rowHash) = false :=
  List.any_eq_false.2 fun row member => by rw [hashed row member]; exact Bool.false_ne_true

theorem backfillIfNeeded_on (hashed : Sealed database schema.table) :
    (backfillIfNeeded host schema).on ⟨database, none⟩ = (.ok ⟨⟩, ⟨database, none⟩) := by
  have answer : (tableNeedsBackfill schema.table).on ⟨database, none⟩ = (.ok false, ⟨database, none⟩) :=
    query_on (by rw [any_eq_false_of_sealed hashed])
  unfold backfillIfNeeded
  rw [bind_on_ok answer]
  rfl

theorem keeps_backfillIfNeeded_of_sealed (hashed : Sealed database schema.table) : Keeps (· = database) (backfillIfNeeded host schema) := by
  intro before outcome after same run
  subst same
  rcases leads_bind run with ⟨failure, -, failed⟩ | ⟨needed, between, atQuery, rest⟩
  · exact (leads_query failed).1
  · obtain ⟨rfl, read⟩ := leads_query_ok atQuery
    rw [any_eq_false_of_sealed hashed] at read
    rw [← Except.ok.inj read] at rest
    exact (leads_pure rest).2

theorem Kept.openConnection_on (kept : Kept database) (host : Host) :
    (openConnection host).on ⟨database, none⟩ = (.ok ⟨⟩, ⟨database, none⟩) := by
  have columns : (Table.all.forM ensureChainColumns).on ⟨database, none⟩ = (.ok ⟨⟩, ⟨database, none⟩) := rfl
  have heads : (Table.all.forM initializeChainHead).on ⟨database, none⟩ = (.ok ⟨⟩, ⟨database, none⟩) := by
    unfold Table.all
    rw [List.forM_eq_forM]
    simp only [List.forM_cons, List.forM_nil]
    rw [bind_on_ok (initializeChainHead_on (kept.anchored _)), bind_on_ok (initializeChainHead_on (kept.anchored _)),
      bind_on_ok (initializeChainHead_on (kept.anchored _)), bind_on_ok (initializeChainHead_on (kept.anchored _))]
    rfl
  unfold openConnection ensureChainSchema
  rw [bind_on_ok (idle_on _ database), bind_on_ok (idle_on _ database), bind_on_ok (idle_on _ database), bind_on_ok (idle_on _ database),
    bind_on_ok columns, bind_on_ok (backfillIfNeeded_on (kept.hashed _)), bind_on_ok (backfillIfNeeded_on (kept.hashed _)),
    bind_on_ok (backfillIfNeeded_on (kept.hashed _)), bind_on_ok (backfillIfNeeded_on (kept.hashed _))]
  exact heads

theorem Kept.openConnection_same (kept : Kept database) {host : Host} {outcome : Except LegitimacyError Unit} {after : Database}
    (run : Leads (openConnection host) database outcome after) : after = database := by
  refine Keeps.bind (motive := (· = database)) Keeps.idle (fun _ => ?_) database outcome after rfl run
  refine Keeps.idle.bind fun _ => Keeps.idle.bind fun _ => Keeps.idle.bind fun _ => ?_
  refine (Keeps.forM fun table _ => Keeps.idle.bind fun _ => Keeps.idle).bind fun _ => ?_
  refine (keeps_backfillIfNeeded_of_sealed (kept.hashed _)).bind fun _ => ?_
  refine (keeps_backfillIfNeeded_of_sealed (kept.hashed _)).bind fun _ => ?_
  refine (keeps_backfillIfNeeded_of_sealed (kept.hashed _)).bind fun _ => ?_
  refine (keeps_backfillIfNeeded_of_sealed (kept.hashed _)).bind fun _ => ?_
  exact Keeps.forM fun table _ => keeps_initializeChainHead_of_anchored (kept.anchored table)

end

section

variable {γ : Type} {host : Host} {schema : Schema γ}

variable {before after : Database}

theorem backfillIfNeeded_elsewhere {outcome : Except LegitimacyError Unit}
    (run : Leads (backfillIfNeeded host schema) before outcome after) :
    after.heads = before.heads ∧ ∀ other, other ≠ schema.table → after.rows other = before.rows other := by
  refine keeps_backfillIfNeeded host schema (motive := fun database =>
    database.heads = before.heads ∧ ∀ other, other ≠ schema.table → database.rows other = before.rows other)
    (fun database rowid prevHash rowHash kept => ⟨kept.1, fun other differs => ?_⟩) before outcome after ⟨rfl, fun _ _ => rfl⟩ run
  rw [Database.setRows_other _ _ differs]
  exact kept.2 other differs

theorem leads_backfillRows {rows : List Row} {previous : String}
    (run : Leads (backfillRows host schema previous rows) before (.ok ⟨⟩) after)
    (remaining : ∀ row ∈ (before.rows schema.table).list, row.rowid ∉ rows.map Row.rowid → isEmptyText row.rowHash = false) :
    Sealed after schema.table := by
  induction rows generalizing previous before with
  | nil =>
    rw [(leads_pure run).2]
    exact fun row member => remaining row member (by simp)
  | cons row rest ih =>
    obtain ⟨content, first, atRow, update⟩ := leads_bind_ok run
    obtain ⟨rfl, -⟩ := leads_query_ok atRow
    obtain ⟨⟨⟩, second, atUpdate, others⟩ := leads_bind_ok update
    have changed := leads_change_ok atUpdate
    refine ih others ?_
    intro other member apart
    rw [changed, Database.setRows_rows] at member
    obtain ⟨old, inside, rfl⟩ := List.mem_map.1 member
    unfold changeAt at apart ⊢
    split
    · have filled := chainHash_ne_empty previous row.rowid (schema.contentText host content)
      exact beq_eq_false_iff_ne.2 filled
    · rename_i elsewhere
      rw [if_neg elsewhere] at apart
      exact remaining old inside (by simpa using ⟨elsewhere, by simpa using apart⟩)

theorem leads_backfillIfNeeded (run : Leads (backfillIfNeeded host schema) before (.ok ⟨⟩) after) :
    Sealed after schema.table := by
  obtain ⟨needed, first, atQuery, rest⟩ := leads_bind_ok run
  obtain ⟨rfl, read⟩ := leads_query_ok atQuery
  have answer := Except.ok.inj read
  cases needed with
  | false =>
    rw [(leads_pure rest).2]
    intro row member
    have all := List.any_eq_false.1 answer row member
    simpa using all
  | true =>
    obtain ⟨_, second, atPrepare, selection⟩ := leads_bind_ok rest
    obtain rfl := leads_idle atPrepare
    obtain ⟨rows, third, atRows, loop⟩ := leads_bind_ok selection
    obtain ⟨rfl, selected⟩ := leads_query_ok atRows
    refine leads_backfillRows loop fun row member apart => absurd ?_ apart
    rw [← Except.ok.inj selected]
    exact List.mem_map_of_mem member

theorem leads_initializeChainHead {table : Table} (run : Leads (initializeChainHead table) before (.ok ⟨⟩) after) :
    (Anchored before table ∧ after = before) ∨ ∃ headHash, before.heads table = none ∧ (before.rows table).lastHash = .ok headHash ∧
      after = before.setHead table ⟨.integer (before.rows table).list.length, .text headHash⟩ := by
  obtain ⟨existing, first, atQuery, rest⟩ := leads_bind_ok run
  obtain ⟨rfl, read⟩ := leads_query_ok atQuery
  have answer := mapError_eq_ok.1 read
  unfold existingHead at answer
  cases found : first.heads table with
  | some head =>
    obtain ⟨rowCount, headHash⟩ := head
    rw [found] at answer
    cases rowCount with
    | integer count =>
      have same : existing = some count := (Except.ok.inj answer).symm
      rw [same] at rest
      exact .inl ⟨⟨count, headHash, found⟩, (leads_pure rest).2⟩
    | null => cases answer
    | real value => cases answer
    | text value => cases answer
    | blob bytes => cases answer
  | none =>
    rw [found] at answer
    have same : existing = none := (Except.ok.inj answer).symm
    rw [same] at rest
    obtain ⟨headHash, second, atHash, update⟩ := leads_bind_ok rest
    obtain ⟨rfl, last⟩ := leads_query_ok atHash
    exact .inr ⟨headHash, rfl, mapError_eq_ok.1 last, leads_updateChainHead update⟩

theorem initializeChainHead_anchored {table : Table} (run : Leads (initializeChainHead table) before (.ok ⟨⟩) after) :
    after.rows = before.rows ∧ Anchored after table ∧ ∀ other, Anchored before other → Anchored after other := by
  rcases leads_initializeChainHead run with ⟨anchored, rfl⟩ | ⟨headHash, -, -, rfl⟩
  · exact ⟨rfl, anchored, fun other found => found⟩
  · refine ⟨rfl, ⟨_, _, Database.setHead_heads ..⟩, fun other anchored => ?_⟩
    by_cases equal : other = table
    · rw [equal]
      exact ⟨_, _, Database.setHead_heads ..⟩
    · obtain ⟨count, hash, head⟩ := anchored
      exact ⟨count, hash, by rw [Database.setHead_other _ _ equal]; exact head⟩

theorem leads_initializeChainHeads {tables : List Table}
    (run : Leads (tables.forM initializeChainHead) before (.ok ⟨⟩) after) :
    after.rows = before.rows ∧ ∀ table, table ∈ tables ∨ Anchored before table → Anchored after table := by
  induction tables generalizing before with
  | nil =>
    rw [(leads_pure run).2]
    exact ⟨rfl, fun table anchored => anchored.resolve_left (by simp)⟩
  | cons table rest ih =>
    rw [List.forM_eq_forM, List.forM_cons] at run
    obtain ⟨⟨⟩, between, atTable, others⟩ := leads_bind_ok run
    obtain ⟨sameRows, anchored, still⟩ := initializeChainHead_anchored atTable
    obtain ⟨sameRows', all⟩ := ih others
    refine ⟨sameRows'.trans sameRows, fun other found => all other ?_⟩
    rcases found with member | before'
    · rcases List.mem_cons.1 member with rfl | member
      · exact .inr anchored
      · exact .inl member
    · exact .inr (still other before')

theorem Table.mem_all (table : Table) : table ∈ Table.all := by
  cases table <;> decide

theorem leads_openConnection (run : Leads (openConnection host) before (.ok ⟨⟩) after) :
    ∃ filled, (∀ table, Sealed filled table) ∧ ((∀ table, Sealed before table) → filled = before) ∧ filled.heads = before.heads ∧
      Leads (Table.all.forM initializeChainHead) filled (.ok ⟨⟩) after := by
  obtain ⟨_, first, atFirst, run₁⟩ := leads_bind_ok run
  obtain rfl := leads_idle atFirst
  obtain ⟨_, second, atSecond, run₂⟩ := leads_bind_ok run₁
  obtain rfl := leads_idle atSecond
  obtain ⟨_, third, atThird, run₃⟩ := leads_bind_ok run₂
  obtain rfl := leads_idle atThird
  obtain ⟨_, fourth, atFourth, run₄⟩ := leads_bind_ok run₃
  obtain rfl := leads_idle atFourth
  obtain ⟨_, fifth, atColumns, run₅⟩ := leads_bind_ok run₄
  have columns : fifth = fourth := Keeps.forM (motive := (· = fourth)) (fun table _ => Keeps.idle.bind fun _ => Keeps.idle)
    fourth _ fifth rfl atColumns
  subst columns
  obtain ⟨⟨⟩, rules, atRules, run₆⟩ := leads_bind_ok run₅
  obtain ⟨⟨⟩, certified, atCertified, run₇⟩ := leads_bind_ok run₆
  obtain ⟨⟨⟩, sacrifices, atSacrifices, run₈⟩ := leads_bind_ok run₇
  obtain ⟨⟨⟩, paradoxes, atParadoxes, atHeads⟩ := leads_bind_ok run₈
  have onward : ∀ {earlier later : Database} {table : Table}, later.rows table = earlier.rows table → Sealed earlier table →
      Sealed later table := fun same hashed row member => hashed row (same ▸ member)
  have heads : paradoxes.heads = fifth.heads := by
    rw [(backfillIfNeeded_elsewhere atParadoxes).1, (backfillIfNeeded_elsewhere atSacrifices).1, (backfillIfNeeded_elsewhere atCertified).1,
      (backfillIfNeeded_elsewhere atRules).1]
  refine ⟨paradoxes, fun table => ?_, fun hashed => ?_, heads, atHeads⟩
  · cases table with
    | compiledRules =>
      exact onward ((backfillIfNeeded_elsewhere atParadoxes).2 _ nofun) (onward ((backfillIfNeeded_elsewhere atSacrifices).2 _ nofun)
        (onward ((backfillIfNeeded_elsewhere atCertified).2 _ nofun) (leads_backfillIfNeeded atRules)))
    | certificates =>
      exact onward ((backfillIfNeeded_elsewhere atParadoxes).2 _ nofun) (onward ((backfillIfNeeded_elsewhere atSacrifices).2 _ nofun)
        (leads_backfillIfNeeded atCertified))
    | declaredSacrifices =>
      exact onward ((backfillIfNeeded_elsewhere atParadoxes).2 _ nofun) (leads_backfillIfNeeded atSacrifices)
    | paradoxResults => exact leads_backfillIfNeeded atParadoxes
  · have sameRules : rules = fifth := keeps_backfillIfNeeded_of_sealed (hashed _) fifth _ rules rfl atRules
    subst sameRules
    have sameCertified : certified = rules := keeps_backfillIfNeeded_of_sealed (hashed _) rules _ certified rfl atCertified
    subst sameCertified
    have sameSacrifices : sacrifices = certified := keeps_backfillIfNeeded_of_sealed (hashed _) certified _ sacrifices rfl atSacrifices
    subst sameSacrifices
    exact keeps_backfillIfNeeded_of_sealed (hashed _) sacrifices _ paradoxes rfl atParadoxes

theorem openConnection_kept (run : Leads (openConnection host) before (.ok ⟨⟩) after) : Kept after := by
  obtain ⟨filled, hashed, -, -, atHeads⟩ := leads_openConnection run
  obtain ⟨sameRows, anchored⟩ := leads_initializeChainHeads atHeads
  exact ⟨fun table => anchored table (.inl table.mem_all), fun table row member => hashed table row (by rw [← sameRows]; exact member)⟩

theorem openConnection_heads (run : Leads (openConnection host) before (.ok ⟨⟩) after)
    (anchored : ∀ table, Anchored before table) : after.heads = before.heads := by
  obtain ⟨filled, -, -, heads, atHeads⟩ := leads_openConnection run
  have still : ∀ table, Anchored filled table := fun table => by
    obtain ⟨rowCount, headHash, head⟩ := anchored table
    exact ⟨rowCount, headHash, by rw [heads]; exact head⟩
  have same : after = filled := Keeps.forM (motive := (· = filled)) (fun table _ => keeps_initializeChainHead_of_anchored (still table))
    filled _ after rfl atHeads
  rw [same, heads]

def emptyLedger : Database := ⟨fun _ => .empty, fun _ => some ⟨.integer 0, .text ""⟩⟩

theorem openConnection_fresh (run : Leads (openConnection host) .fresh (.ok ⟨⟩) after) : after = emptyLedger := by
  obtain ⟨filled, -, same, -, atHeads⟩ := leads_openConnection run
  rw [same fun table row member => by cases member] at atHeads
  have heads : ∀ (tables : List Table) (before : Database), before.rows = Database.fresh.rows →
      (∀ table, before.heads table = none ∨ before.heads table = emptyLedger.heads table) →
      Leads (tables.forM initializeChainHead) before (.ok ⟨⟩) after →
      after.rows = Database.fresh.rows ∧ ∀ table, after.heads table = none ∨ after.heads table = emptyLedger.heads table := by
    intro tables
    induction tables with
    | nil =>
      intro before rows zero done
      rw [(leads_pure done).2]
      exact ⟨rows, zero⟩
    | cons table rest ih =>
      intro before rows zero steps
      rw [List.forM_eq_forM, List.forM_cons] at steps
      obtain ⟨⟨⟩, between, atTable, others⟩ := leads_bind_ok steps
      rcases leads_initializeChainHead atTable with ⟨-, rfl⟩ | ⟨headHash, -, last, rfl⟩
      · exact ih between rows zero others
      · refine ih (before.setHead table ⟨.integer (before.rows table).list.length, .text headHash⟩) rows (fun other => ?_) others
        by_cases equal : other = table
        · subst equal
          rw [rows] at last
          rw [Database.setHead_heads, rows, ← Except.ok.inj last]
          exact .inr rfl
        · rw [Database.setHead_other _ _ equal]
          exact zero other
  obtain ⟨rows, found⟩ := heads Table.all .fresh rfl (fun _ => .inl rfl) atHeads
  obtain ⟨-, anchored⟩ := leads_initializeChainHeads atHeads
  have all : after.heads = emptyLedger.heads := by
    funext table
    rcases found table with missing | present
    · obtain ⟨rowCount, headHash, head⟩ := anchored table (.inl table.mem_all)
      rw [missing] at head
      cases head
    · exact present
  cases after
  simp only at rows all
  rw [rows, all]
  rfl

end

theorem Kept.append {γ : Type} {host : Host} {schema : Schema γ} {database : Database} (kept : Kept database) (content : γ)
    (prevHash : String) (rowid : Int) : Kept (database.append host schema content prevHash rowid) := by
  refine ⟨fun table => ?_, fun table row member => ?_⟩
  · by_cases same : table = schema.table
    · rw [same]
      exact ⟨_, _, Database.setHead_heads ..⟩
    · obtain ⟨rowCount, headHash, head⟩ := kept.anchored table
      refine ⟨rowCount, headHash, ?_⟩
      show ((database.setRows _ _).setHead _ _).heads table = _
      rw [Database.setHead_other _ _ same]
      exact head
  · change row ∈ ((database.setRows _ _).rows table).list at member
    by_cases same : table = schema.table
    · subst same
      rw [Database.setRows_rows] at member
      rcases List.mem_append.1 member with before | behind
      · exact kept.hashed _ row (List.mem_of_mem_filter before)
      · rcases List.mem_cons.1 behind with rfl | behind
        · exact beq_eq_false_iff_ne.2 (chainHash_ne_empty _ _ _)
        · exact kept.hashed _ row (List.mem_of_mem_filter behind)
    · rw [Database.setRows_other _ _ same] at member
      exact kept.hashed table row member

end Legitimacy.Ledger
