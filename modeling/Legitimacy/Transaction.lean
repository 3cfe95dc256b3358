import Mathlib.Data.List.Basic

namespace Transaction

/-- The store as the statements see it, and the refusal that lies ahead: after how many statements, with which reason. -/
structure Session (σ : Type) where
  store : σ
  refusal : Option (Nat × String)

/-- A run keeps the store it has reached also when it fails. -/
abbrev Action (σ ε : Type) := ExceptT ε (StateM (Session σ))

variable {σ ε α β : Type}

def Action.on (action : Action σ ε α) (session : Session σ) : Except ε α × Session σ := action.run.run session

def later : Option (Nat × String) → Option (Nat × String) := Option.map fun (count, reason) => (count - 1, reason)

/-- One statement: it is refused as a whole, fails as a whole, or has its effect. -/
def statement (refused : String → ε) (effect : σ → Except ε (α × σ)) : Action σ ε α := fun session =>
  match session.refusal with
  | some (0, reason) => (.error (refused reason), session)
  | refusal =>
    match effect session.store with
    | .ok (value, store) => (.ok value, ⟨store, later refusal⟩)
    | .error failure => (.error failure, ⟨session.store, later refusal⟩)

def query (refused : String → ε) (read : σ → Except ε α) : Action σ ε α :=
  statement refused fun store => (read store).map fun value => (value, store)

def idle (refused : String → ε) : Action σ ε Unit := query refused fun _ => .ok ⟨⟩

/-- The body between a begin and a commit. When the body or the commit fails, the store is the one before the body. -/
def transaction (starting committing : String → ε) (body : Action σ ε α) : Action σ ε α := fun session =>
  match (idle starting).on session with
  | (.error failure, begun) => (.error failure, begun)
  | (.ok _, begun) =>
    match body.on begun with
    | (.error failure, after) => (.error failure, ⟨session.store, after.refusal⟩)
    | (.ok value, after) =>
      match (idle committing).on after with
      | (.error failure, ended) => (.error failure, ⟨session.store, ended.refusal⟩)
      | (.ok _, ended) => (.ok value, ended)

/-- What an action can lead from one store to, over all refusals. -/
def Leads (action : Action σ ε α) (before : σ) (outcome : Except ε α) (after : σ) : Prop :=
  ∃ refusal rest, action.on ⟨before, refusal⟩ = (outcome, ⟨after, rest⟩)

theorem on_leads {action : Action σ ε α} {session after : Session σ} {outcome : Except ε α} (run : action.on session = (outcome, after)) :
    Leads action session.store outcome after.store := ⟨session.refusal, after.refusal, run⟩

theorem leads_on (action : Action σ ε α) (session : Session σ) :
    Leads action session.store (action.on session).1 (action.on session).2.store := on_leads rfl

section

@[simp]
theorem pure_on (value : α) (session : Session σ) : (pure value : Action σ ε α).on session = (.ok value, session) := rfl

theorem bind_on (first : Action σ ε α) (next : α → Action σ ε β) (session : Session σ) :
    (first >>= next).on session =
      match first.on session with
      | (.ok value, between) => (next value).on between
      | (.error failure, between) => (.error failure, between) := by
  show (ExceptT.run (first >>= next)).run session = _
  rw [ExceptT.run_bind, StateT.run_bind]
  unfold Action.on
  rcases StateT.run (ExceptT.run first) session with ⟨outcome, between⟩
  cases outcome with
  | error failure => rfl
  | ok value => rfl

theorem bind_on_ok {first : Action σ ε α} {next : α → Action σ ε β} {session between : Session σ} {value : α}
    (run : first.on session = (.ok value, between)) : (first >>= next).on session = (next value).on between := by
  rw [bind_on, run]

theorem bind_on_error {first : Action σ ε α} {next : α → Action σ ε β} {session between : Session σ} {failure : ε}
    (run : first.on session = (.error failure, between)) : (first >>= next).on session = (.error failure, between) := by
  rw [bind_on, run]

theorem statement_on {refused : String → ε} {effect : σ → Except ε (α × σ)} {before after : σ} {value : α}
    (run : effect before = .ok (value, after)) : (statement refused effect).on ⟨before, none⟩ = (.ok value, ⟨after, none⟩) := by
  show statement refused effect ⟨before, none⟩ = _
  simp only [statement, run, later, Option.map_none]

theorem query_on {refused : String → ε} {read : σ → Except ε α} {store : σ} {value : α} (run : read store = .ok value) :
    (query refused read).on ⟨store, none⟩ = (.ok value, ⟨store, none⟩) := statement_on (by rw [run]; rfl)

theorem idle_on (refused : String → ε) (store : σ) : (idle refused).on ⟨store, none⟩ = (.ok ⟨⟩, ⟨store, none⟩) := query_on rfl

theorem transaction_on {starting committing : String → ε} {body : Action σ ε α} {before after : σ} {value : α}
    (run : body.on ⟨before, none⟩ = (.ok value, ⟨after, none⟩)) :
    (transaction starting committing body).on ⟨before, none⟩ = (.ok value, ⟨after, none⟩) := by
  show transaction starting committing body ⟨before, none⟩ = _
  simp only [transaction, idle_on, run]

end

section

variable {before after : σ}

theorem leads_pure {value : α} {outcome : Except ε α} (run : Leads (pure value : Action σ ε α) before outcome after) :
    outcome = .ok value ∧ after = before := by
  obtain ⟨refusal, rest, run⟩ := run
  rw [pure_on] at run
  cases run
  exact ⟨rfl, rfl⟩

theorem leads_bind {first : Action σ ε α} {next : α → Action σ ε β} {outcome : Except ε β}
    (run : Leads (first >>= next) before outcome after) :
    (∃ failure, outcome = .error failure ∧ Leads first before (.error failure) after) ∨
    ∃ value between, Leads first before (.ok value) between ∧ Leads (next value) between outcome after := by
  obtain ⟨refusal, rest, run⟩ := run
  rw [bind_on] at run
  rcases atFirst : first.on ⟨before, refusal⟩ with ⟨result, between⟩
  rw [atFirst] at run
  cases result with
  | error failure =>
    cases run
    exact .inl ⟨failure, rfl, refusal, rest, atFirst⟩
  | ok value => exact .inr ⟨value, between.store, ⟨refusal, between.refusal, atFirst⟩, between.refusal, rest, run⟩

theorem leads_bind_ok {first : Action σ ε α} {next : α → Action σ ε β} {result : β}
    (run : Leads (first >>= next) before (.ok result) after) :
    ∃ value between, Leads first before (.ok value) between ∧ Leads (next value) between (.ok result) after := by
  rcases leads_bind run with ⟨failure, differs, -⟩ | found
  · cases differs
  · exact found

variable {refused : String → ε}

theorem leads_statement {effect : σ → Except ε (α × σ)} {outcome : Except ε α}
    (run : Leads (statement refused effect) before outcome after) :
    (∃ failure, outcome = .error failure ∧ after = before) ∨ ∃ value, outcome = .ok value ∧ effect before = .ok (value, after) := by
  obtain ⟨refusal, rest, run⟩ := run
  change statement refused effect ⟨before, refusal⟩ = _ at run
  unfold statement at run
  split at run
  · cases run
    exact .inl ⟨_, rfl, rfl⟩
  · split at run
    · cases run
      exact .inr ⟨_, rfl, by assumption⟩
    · cases run
      exact .inl ⟨_, rfl, rfl⟩

theorem leads_statement_ok {effect : σ → Except ε (α × σ)} {value : α}
    (run : Leads (statement refused effect) before (.ok value) after) : effect before = .ok (value, after) := by
  rcases leads_statement run with ⟨failure, differs, -⟩ | ⟨value', same, had⟩
  · cases differs
  · cases same
    exact had

theorem leads_change_ok {change : σ → σ} {result : Unit}
    (run : Leads (statement refused fun store => .ok ((), change store)) before (.ok result) after) : after = change before := by
  have made := Except.ok.inj (leads_statement_ok run)
  exact (congrArg Prod.snd made).symm

theorem leads_query {read : σ → Except ε α} {outcome : Except ε α}
    (run : Leads (query refused read) before outcome after) :
    after = before ∧ ((∃ failure, outcome = .error failure) ∨ ∃ value, outcome = .ok value ∧ read before = .ok value) := by
  rcases leads_statement run with ⟨failure, failed, same⟩ | ⟨value, passed, had⟩
  · exact ⟨same, .inl ⟨failure, failed⟩⟩
  · rcases result : read before with failure | value'
    · rw [result] at had
      cases had
    · rw [result] at had
      cases had
      exact ⟨rfl, .inr ⟨value, passed, rfl⟩⟩

theorem leads_query_ok {read : σ → Except ε α} {value : α}
    (run : Leads (query refused read) before (.ok value) after) : after = before ∧ read before = .ok value := by
  obtain ⟨same, ⟨failure, differs⟩ | ⟨value', equal, had⟩⟩ := leads_query run
  · cases differs
  · cases equal
    exact ⟨same, had⟩

theorem leads_idle {outcome : Except ε Unit} (run : Leads (idle refused) before outcome after) :
    after = before := (leads_query run).1

/-- A transaction that fails leaves the store as it was; one that succeeds leaves what its body made. -/
theorem leads_transaction {starting committing : String → ε} {body : Action σ ε α} {outcome : Except ε α}
    (run : Leads (transaction starting committing body) before outcome after) :
    (∃ failure, outcome = .error failure ∧ after = before) ∨ ∃ value, outcome = .ok value ∧ Leads body before (.ok value) after := by
  obtain ⟨refusal, rest, run⟩ := run
  change transaction starting committing body ⟨before, refusal⟩ = _ at run
  unfold transaction at run
  rcases atBegin : (idle starting).on ⟨before, refusal⟩ with ⟨started, begun⟩
  rw [atBegin] at run
  have kept : begun.store = before := leads_idle (on_leads atBegin)
  cases started with
  | error failure =>
    cases run
    exact .inl ⟨failure, rfl, kept⟩
  | ok begins =>
    dsimp only at run
    rcases atBody : body.on begun with ⟨result, made⟩
    rw [atBody] at run
    cases result with
    | error failure =>
      cases run
      exact .inl ⟨failure, rfl, rfl⟩
    | ok value =>
      dsimp only at run
      rcases atCommit : (idle committing).on made with ⟨committed, ended⟩
      rw [atCommit] at run
      have same : ended.store = made.store := leads_idle (on_leads atCommit)
      cases committed with
      | error failure =>
        cases run
        exact .inl ⟨failure, rfl, rfl⟩
      | ok commits =>
        cases run
        change after = made.store at same
        exact .inr ⟨value, rfl, begun.refusal, made.refusal, by rw [← kept, same]; exact atBody⟩

end

section

/-- An action keeps a property of the store, also when it fails. -/
def Keeps (motive : σ → Prop) (action : Action σ ε α) : Prop :=
  ∀ before outcome after, motive before → Leads action before outcome after → motive after

variable {motive : σ → Prop}

theorem Keeps.pure (value : α) : Keeps motive (pure value : Action σ ε α) := by
  intro before outcome after holds run
  rw [(leads_pure run).2]
  exact holds

theorem Keeps.bind {first : Action σ ε α} {next : α → Action σ ε β} (atFirst : Keeps motive first) (atNext : ∀ value, Keeps motive (next value)) :
    Keeps motive (first >>= next) := by
  intro before outcome after holds run
  rcases leads_bind run with ⟨failure, -, failed⟩ | ⟨value, between, passed, rest⟩
  · exact atFirst before _ after holds failed
  · exact atNext value between outcome after (atFirst before _ between holds passed) rest

theorem Keeps.query {refused : String → ε} {read : σ → Except ε α} : Keeps motive (query refused read) := by
  intro before outcome after holds run
  rw [(leads_query run).1]
  exact holds

theorem Keeps.idle {refused : String → ε} : Keeps motive (idle refused) := Keeps.query

theorem Keeps.change {refused : String → ε} {change : σ → σ} (kept : ∀ store, motive store → motive (change store)) :
    Keeps motive (statement refused fun store => .ok ((), change store)) := by
  intro before outcome after holds run
  rcases leads_statement run with ⟨failure, -, same⟩ | ⟨value, -, had⟩
  · rw [same]
    exact holds
  · have made : change before = after := congrArg Prod.snd (Except.ok.inj had)
    exact made ▸ kept before holds

theorem Keeps.forM {act : α → Action σ ε Unit} {values : List α} (each : ∀ value ∈ values, Keeps motive (act value)) :
    Keeps motive (values.forM act) := by
  induction values with
  | nil => exact Keeps.pure _
  | cons value rest ih =>
    rw [List.forM_eq_forM, List.forM_cons]
    exact (each value List.mem_cons_self).bind fun _ => ih fun other member => each other (List.mem_cons_of_mem value member)

end

section

/-- What a run ends in: a `reached` store where it succeeds, a `left` one where it fails. -/
def Establishes (start reached left : σ → Prop) (action : Action σ ε α) : Prop :=
  ∀ before outcome after, start before → Leads action before outcome after →
    (∃ failure, outcome = .error failure ∧ left after) ∨ ∃ value, outcome = .ok value ∧ reached after

variable {start between reached left : σ → Prop}

theorem Establishes.bind {first : Action σ ε α} {next : α → Action σ ε β} (atFirst : Establishes start between left first)
    (atNext : ∀ value, Establishes between reached left (next value)) : Establishes start reached left (first >>= next) := by
  intro before outcome after holds run
  rcases leads_bind run with ⟨failure, rfl, failed⟩ | ⟨value, middle, passed, rest⟩
  · rcases atFirst before _ after holds failed with ⟨_, -, kept⟩ | ⟨value, differs, -⟩
    · exact .inl ⟨failure, rfl, kept⟩
    · cases differs
  · rcases atFirst before _ middle holds passed with ⟨_, differs, -⟩ | ⟨_, -, kept⟩
    · cases differs
    · exact atNext value middle outcome after kept rest

theorem Establishes.of_imp {start' : σ → Prop} {action : Action σ ε α} (does : Establishes start reached left action)
    (stronger : ∀ store, start' store → start store) : Establishes start' reached left action :=
  fun before outcome after holds run => does before outcome after (stronger before holds) run

theorem Keeps.establishes {motive : σ → Prop} {action : Action σ ε α} (keeps : Keeps motive action) (weaker : ∀ store, motive store → left store) :
    Establishes motive motive left action := by
  intro before outcome after holds run
  have kept := keeps before outcome after holds run
  cases outcome with
  | error failure => exact .inl ⟨failure, rfl, weaker after kept⟩
  | ok value => exact .inr ⟨value, rfl, kept⟩

theorem Establishes.forM {stage : List α → σ → Prop} {act : α → Action σ ε Unit} (values : List α)
    (each : ∀ passed value, value ∈ values → Establishes (stage passed) (stage (passed ++ [value])) left (act value)) (passed : List α) :
    Establishes (stage passed) (stage (passed ++ values)) left (values.forM act) := by
  induction values generalizing passed with
  | nil =>
    intro before outcome after holds run
    obtain ⟨rfl, rfl⟩ := leads_pure run
    exact .inr ⟨_, rfl, by rw [List.append_nil]; exact holds⟩
  | cons value rest ih =>
    rw [List.forM_eq_forM, List.forM_cons]
    refine (each passed value List.mem_cons_self).bind fun _ => ?_
    have onward := ih (fun earlier other member => each earlier other (List.mem_cons_of_mem value member)) (passed ++ [value])
    rwa [List.append_assoc] at onward

end

end Transaction
