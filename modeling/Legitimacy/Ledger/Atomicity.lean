import Legitimacy.Ledger.Kept

namespace Legitimacy.Ledger

open Transaction

section

variable (host : Host) (ruleName : String)

def paradoxCount (database : Database) : Nat := (database.rows .paradoxResults).list.length

theorem leads_recordParadoxRow {paradoxType description : String} {clock : Int} {before after : Database}
    {outcome : Except LegitimacyError Unit} (run : Leads (recordParadoxRow host ruleName paradoxType description clock) before outcome after) :
    (∃ failure, outcome = .error failure ∧ after = before) ∨ (outcome = .ok ⟨⟩ ∧ paradoxCount after = paradoxCount before + 1) := by
  unfold recordParadoxRow currentTimestamp at run
  split at run
  · obtain ⟨refusal, rest, run⟩ := run
    cases run
    exact .inl ⟨_, rfl, rfl⟩
  · rw [pure_bind] at run
    rcases leads_transaction run with failed | ⟨⟨⟩, passed, body⟩
    · exact .inl failed
    · obtain ⟨prevHash, rowid, -, -, next, rfl⟩ := leads_appendRow body
      exact .inr ⟨passed, length_append next⟩

theorem leads_recordViolations {violations : List (ParadoxViolation × Int)} {before after : Database}
    {outcome : Except LegitimacyError Unit} (run : Leads (violations.forM (recordViolation host ruleName)) before outcome after) :
    paradoxCount before ≤ paradoxCount after := by
  refine Keeps.forM (motive := fun database => paradoxCount before ≤ paradoxCount database) (fun violation member => ?_)
    before outcome after le_rfl run
  intro store result next below step
  rcases leads_recordParadoxRow host ruleName step with ⟨failure, -, rfl⟩ | ⟨-, more⟩
  · exact below
  · omega

theorem paradoxCount_openConnection {before after : Database} {outcome : Except LegitimacyError Unit}
    (run : Leads (openConnection host) before outcome after) : paradoxCount after = paradoxCount before := by
  have same := congrArg List.length (openConnection_untied host run .paradoxResults)
  rwa [List.length_map, List.length_map] at same

/-- The first violation's transaction gets through, in a session that may refuse any statement. -/
def FirstInsertCommits (violations : List ParadoxViolation) (clocks : Nat → Int) (session : Session Database) : Prop :=
  ∃ first rest, violations = first :: rest ∧
    ((openConnection host >>= fun _ => recordViolation host ruleName (first, clocks 0)).on session).1 = .ok ⟨⟩

/-- A failed call leaves the ledger as it was exactly when opening it had nothing to repair and no violation was recorded before the
failure: every violation is a transaction of its own. -/
theorem recordParadoxResults_unchanged_iff {violations : List ParadoxViolation} {clocks : Nat → Int} {session : Session Database}
    {failure : LegitimacyError} (failed : ((recordParadoxResults host ruleName violations clocks).on session).1 = .error failure) :
    ((recordParadoxResults host ruleName violations clocks).on session).2.store = session.store ↔
      ((openConnection host).on session).2.store = session.store ∧ ¬FirstInsertCommits host ruleName violations clocks session := by
  unfold recordParadoxResults withConnection FirstInsertCommits at *
  rcases atOpen : (openConnection host).on session with ⟨opened, between⟩
  have counted := paradoxCount_openConnection host (on_leads atOpen)
  cases opened with
  | error reason =>
    have stuck : ∀ body : Statements Unit, (openConnection host >>= fun _ => body).on session = (.error reason, between) :=
      fun body => bind_on_error atOpen
    simp only [stuck]
    simp
  | ok done =>
    have goes : ∀ body : Statements Unit, (openConnection host >>= fun _ => body).on session = body.on between :=
      fun body => bind_on_ok atOpen
    simp only [goes] at failed ⊢
    cases violations with
    | nil =>
      simp only [List.isEmpty_nil, if_true] at failed ⊢
      rcases leads_recordParadoxRow host ruleName (leads_on _ between) with ⟨_, -, same⟩ | ⟨passed, -⟩
      · rw [same]
        simp
      · rw [passed] at failed
        cases failed
    | cons first rest =>
      simp only [List.isEmpty_cons, Bool.false_eq_true, if_false, List.zipIdx_cons, List.map_cons, List.forM_eq_forM, List.forM_cons]
        at failed ⊢
      rcases atFirst : (recordViolation host ruleName (first, clocks 0)).on between with ⟨inserted, after⟩
      rcases leads_recordParadoxRow host ruleName (on_leads atFirst) with ⟨reason, rfl, same⟩ | ⟨rfl, more⟩
      · rw [bind_on_error atFirst]
        rw [same]
        simp [atFirst]
      · rw [bind_on_ok atFirst]
        have grown := leads_recordViolations host ruleName (leads_on (((rest.zipIdx (0 + 1)).map fun entry =>
          (entry.1, clocks entry.2)).forM (recordViolation host ruleName)) after)
        constructor
        · intro same
          rw [List.forM_eq_forM, same] at grown
          omega
        · intro both
          exact absurd ⟨first, rest, rfl, congrArg Prod.fst atFirst⟩ both.2

end

section

def twoViolations : List ParadoxViolation := [⟨.population, "first"⟩, ⟨.priority, "second"⟩]

/-- The disk fills up at the insertion of the second violation. -/
def fullDisk : Session Database := ⟨emptyLedger, some (29, "database or disk is full")⟩

def diskFull : LegitimacyError := .sqlite "recording paradox result" "database or disk is full"

theorem recordParadoxResults_fullDisk :
    ((recordParadoxResults exampleHost "rule" twoViolations fun _ => 0).on fullDisk).1 = .error diskFull := by rfl

theorem recordParadoxResults_unchanged_iff_fullDisk :
    ((recordParadoxResults exampleHost "rule" twoViolations fun _ => 0).on fullDisk).2.store = fullDisk.store ↔
      ((openConnection exampleHost).on fullDisk).2.store = fullDisk.store ∧
        ¬FirstInsertCommits exampleHost "rule" twoViolations (fun _ => 0) fullDisk :=
  recordParadoxResults_unchanged_iff exampleHost "rule" recordParadoxResults_fullDisk

theorem paradoxCount_fullDisk :
    paradoxCount ((recordParadoxResults exampleHost "rule" twoViolations fun _ => 0).on fullDisk).2.store = 1 := by rfl

theorem recordParadoxResults_not_atomic : ¬∀ host ruleName violations clocks session failure,
    ((recordParadoxResults host ruleName violations clocks).on session).1 = .error failure →
      ((recordParadoxResults host ruleName violations clocks).on session).2.store = session.store := by
  intro atomic
  have same := atomic exampleHost "rule" twoViolations (fun _ => 0) fullDisk _ recordParadoxResults_fullDisk
  have counted := paradoxCount_fullDisk
  rw [same] at counted
  exact absurd counted (by decide)

end

end Legitimacy.Ledger
