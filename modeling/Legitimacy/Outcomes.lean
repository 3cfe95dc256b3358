import Mathlib.Control.Monad.Basic

namespace Outcomes

abbrev Program (σ ε : Type) := ExceptT ε (StateM σ)

variable {σ ε ε' α β : Type}

def Program.on (program : Program σ ε α) (state : σ) : Except ε α × σ := program.run.run state

/-- The failure of a program under another name. -/
def orFail (rename : ε → ε') (program : Program σ ε α) : Program σ ε' α := fun state =>
  let (outcome, final) := program.on state
  (outcome.mapError rename, final)

/-- A program that does not stop at its failure. -/
def outcome (program : Program σ ε α) : Program σ ε' (Except ε α) := fun state =>
  let (result, final) := program.on state
  (.ok result, final)

def require (condition : Prop) [Decidable condition] (failure : ε) : Program σ ε Unit :=
  if condition then pure ⟨⟩ else throw failure

/-- Where a run that begins in `start` ends: in `reached` with its value, or in `left` with its failure. -/
structure Ensures (start : σ → Prop) (program : Program σ ε α) (reached : α → σ → Prop) (left : ε → σ → Prop) : Prop where
  ends : ∀ state, start state →
    (∃ value final, program.on state = (.ok value, final) ∧ reached value final) ∨
    ∃ failure final, program.on state = (.error failure, final) ∧ left failure final

section

variable {start start' : σ → Prop} {reached reached' : α → σ → Prop} {left left' : ε → σ → Prop} {program : Program σ ε α}

theorem bind_on (first : Program σ ε α) (next : α → Program σ ε β) (state : σ) :
    (first >>= next).on state =
      match first.on state with
      | (.ok value, between) => (next value).on between
      | (.error failure, between) => (.error failure, between) := by
  show (ExceptT.run (first >>= next)).run state = _
  rw [ExceptT.run_bind, StateT.run_bind]
  unfold Program.on
  rcases StateT.run (ExceptT.run first) state with ⟨result, between⟩
  cases result with
  | error failure => rfl
  | ok value => rfl

theorem outcome_on (program : Program σ ε α) (state : σ) :
    (outcome program : Program σ ε' (Except ε α)).on state = (.ok (program.on state).1, (program.on state).2) := rfl

theorem require_on (condition : Prop) [Decidable condition] (failure : ε) (state : σ) :
    (require condition failure).on state = (if condition then .ok ⟨⟩ else .error failure, state) := by
  unfold require
  split <;> rfl

theorem Ensures.pure {value : α} (holds : ∀ state, start state → reached value state) :
    Ensures start (pure value : Program σ ε α) reached left :=
  ⟨fun state begun => .inl ⟨value, state, rfl, holds state begun⟩⟩

theorem Ensures.throw {failure : ε} (holds : ∀ state, start state → left failure state) :
    Ensures start (throw failure : Program σ ε α) reached left :=
  ⟨fun state begun => .inr ⟨failure, state, rfl, holds state begun⟩⟩

theorem Ensures.bind {between : β → σ → Prop} {first : Program σ ε β} {next : β → Program σ ε α}
    (atFirst : Ensures start first between left) (atNext : ∀ value, Ensures (between value) (next value) reached left) :
    Ensures start (first >>= next) reached left := by
  refine ⟨fun state begun => ?_⟩
  rw [bind_on]
  rcases atFirst.ends state begun with ⟨value, middle, run, holds⟩ | ⟨failure, final, run, holds⟩
  · rw [run]
    exact (atNext value).ends middle holds
  · exact .inr ⟨failure, final, by rw [run], holds⟩

theorem Ensures.bind_with {between : σ → Prop} {fact : β → Prop} {first : Program σ ε β} {next : β → Program σ ε α}
    (atFirst : Ensures start first (fun value state => between state ∧ fact value) left)
    (atNext : ∀ value, fact value → Ensures between (next value) reached left) : Ensures start (first >>= next) reached left := by
  refine atFirst.bind fun value => ⟨fun state begun => ?_⟩
  exact (atNext value begun.2).ends state begun.1

theorem Ensures.of_imp (ensures : Ensures start program reached left) (stronger : ∀ state, start' state → start state)
    (weaker : ∀ value state, reached value state → reached' value state) (weakerLeft : ∀ failure state, left failure state → left' failure state) :
    Ensures start' program reached' left' := by
  refine ⟨fun state begun => ?_⟩
  rcases ensures.ends state (stronger state begun) with ⟨value, final, run, holds⟩ | ⟨failure, final, run, holds⟩
  · exact .inl ⟨value, final, run, weaker value final holds⟩
  · exact .inr ⟨failure, final, run, weakerLeft failure final holds⟩

theorem Ensures.leaving (ensures : Ensures start program reached left) (weakerLeft : ∀ failure state, left failure state → left' failure state) :
    Ensures start program reached left' := ensures.of_imp (fun _ => id) (fun _ _ => id) weakerLeft

theorem Ensures.orFail {rename : ε → ε'} {left' : ε' → σ → Prop}
    (ensures : Ensures start program reached fun failure state => left' (rename failure) state) :
    Ensures start (orFail rename program) reached left' := by
  refine ⟨fun state begun => ?_⟩
  rcases ensures.ends state begun with ⟨value, final, run, holds⟩ | ⟨failure, final, run, holds⟩
  · refine .inl ⟨value, final, ?_, holds⟩
    show Outcomes.orFail rename program state = _
    simp only [Outcomes.orFail, run, Except.mapError]
  · refine .inr ⟨rename failure, final, ?_, holds⟩
    show Outcomes.orFail rename program state = _
    simp only [Outcomes.orFail, run, Except.mapError]

theorem Ensures.orFail_const {code : ε'} (ensures : Ensures start program reached fun _ _ => True) :
    Ensures start (Outcomes.orFail (fun _ => code) program) reached fun failure _ => failure = code := by
  refine Ensures.orFail (ensures.leaving fun _ _ _ => ?_)
  rfl

theorem Ensures.outcome {reached : Except ε α → σ → Prop} {left : ε' → σ → Prop}
    (ensures : Ensures start program (fun value => reached (.ok value)) fun failure => reached (.error failure)) :
    Ensures start (outcome program) reached left := by
  refine ⟨fun state begun => ?_⟩
  rcases ensures.ends state begun with ⟨value, final, run, holds⟩ | ⟨failure, final, run, holds⟩
  · refine .inl ⟨_, final, ?_, holds⟩
    show Outcomes.outcome program state = _
    simp only [Outcomes.outcome, run]
  · refine .inl ⟨_, final, ?_, holds⟩
    show Outcomes.outcome program state = _
    simp only [Outcomes.outcome, run]

/-- What holds of the outcome of a program. -/
def Tells (reached : α → σ → Prop) (left : ε → σ → Prop) : Except ε α → σ → Prop
  | .ok value => reached value
  | .error failure => left failure

theorem Ensures.tried {left' : ε' → σ → Prop} (ensures : Ensures start program reached left) :
    Ensures start (Outcomes.outcome program) (Tells reached left) left' :=
  Ensures.outcome ensures

theorem Ensures.require {condition : Prop} [Decidable condition] {failure : ε} (unmet : ∀ state, start state → left failure state) :
    Ensures start (require condition failure) (fun _ state => condition ∧ start state) left := by
  unfold Outcomes.require
  split
  · next holds => exact Ensures.pure fun state begun => ⟨holds, begun⟩
  · exact Ensures.throw unmet

theorem Ensures.and (first : Ensures start program reached left) (second : Ensures start' program reached' left') :
    Ensures (fun state => start state ∧ start' state) program (fun value state => reached value state ∧ reached' value state)
      fun failure state => left failure state ∧ left' failure state := by
  refine ⟨fun state begun => ?_⟩
  rcases first.ends state begun.1 with ⟨value, final, run, holds⟩ | ⟨failure, final, run, holds⟩
  · rcases second.ends state begun.2 with ⟨value', final', run', holds'⟩ | ⟨failure', final', run', holds'⟩
    · cases run.symm.trans run'
      exact .inl ⟨value, final, run, holds, holds'⟩
    · cases run.symm.trans run'
  · rcases second.ends state begun.2 with ⟨value', final', run', holds'⟩ | ⟨failure', final', run', holds'⟩
    · cases run.symm.trans run'
    · cases run.symm.trans run'
      exact .inr ⟨failure, final, run, holds, holds'⟩

theorem Ensures.ended : Ensures start program (fun _ _ => True) fun _ _ => True := by
  refine ⟨fun state _ => ?_⟩
  rcases program.on state with ⟨failure | value, final⟩
  · exact .inr ⟨failure, final, rfl, trivial⟩
  · exact .inl ⟨value, final, rfl, trivial⟩

theorem Ensures.of_start {fact : Prop} (known : ∀ state, start state → fact) (ensures : fact → Ensures start program reached left) :
    Ensures start program reached left :=
  ⟨fun state begun => (ensures (known state begun)).ends state begun⟩

theorem Ensures.of_exists {begins : β → σ → Prop} (each : ∀ value, Ensures (begins value) program reached left) :
    Ensures (fun state => ∃ value, begins value state) program reached left :=
  ⟨fun state ⟨value, begun⟩ => (each value).ends state begun⟩

theorem Ensures.ok {value : α} {state final : σ} (ensures : Ensures start program reached left) (begun : start state)
    (run : program.on state = (.ok value, final)) : reached value final := by
  rcases ensures.ends state begun with ⟨value', final', run', holds⟩ | ⟨failure, final', run', holds⟩
  · cases run.symm.trans run'
    exact holds
  · cases run.symm.trans run'

theorem Ensures.error {failure : ε} {state final : σ} (ensures : Ensures start program reached left) (begun : start state)
    (run : program.on state = (.error failure, final)) : left failure final := by
  rcases ensures.ends state begun with ⟨value, final', run', holds⟩ | ⟨failure', final', run', holds⟩
  · cases run.symm.trans run'
  · cases run.symm.trans run'
    exact holds

end

section

variable {τ : Type}

/-- A program that changes nothing of what `view` shows. -/
structure Preserves (view : σ → τ) (program : Program σ ε α) : Prop where
  same : ∀ state, view (program.on state).2 = view state

variable {view : σ → τ}

theorem Preserves.pure (value : α) : Preserves view (pure value : Program σ ε α) := ⟨fun _ => rfl⟩

theorem Preserves.throw (failure : ε) : Preserves view (throw failure : Program σ ε α) := ⟨fun _ => rfl⟩

theorem Preserves.bind {first : Program σ ε β} {next : β → Program σ ε α} (atFirst : Preserves view first)
    (atNext : ∀ value, Preserves view (next value)) : Preserves view (first >>= next) := by
  refine ⟨fun state => ?_⟩
  rw [bind_on]
  have kept := atFirst.same state
  rcases run : first.on state with ⟨result, between⟩
  rw [run] at kept
  cases result with
  | error failure => exact kept
  | ok value => exact ((atNext value).same between).trans kept

theorem Preserves.orFail {rename : ε → ε'} {program : Program σ ε α} (kept : Preserves view program) :
    Preserves view (orFail rename program) := ⟨kept.same⟩

theorem Preserves.outcome {program : Program σ ε α} (kept : Preserves view program) :
    Preserves view (outcome program : Program σ ε' (Except ε α)) := ⟨kept.same⟩

theorem Preserves.require (condition : Prop) [Decidable condition] (failure : ε) :
    Preserves view (require condition failure : Program σ ε Unit) := by
  unfold Outcomes.require
  split
  · exact Preserves.pure _
  · exact Preserves.throw _

theorem Preserves.forM {act : β → Program σ ε Unit} {values : List β} (each : ∀ value ∈ values, Preserves view (act value)) :
    Preserves view (values.forM act) := by
  induction values with
  | nil => exact Preserves.pure _
  | cons value rest ih =>
    rw [List.forM_eq_forM, List.forM_cons]
    exact (each value List.mem_cons_self).bind fun _ => ih fun other member => each other (List.mem_cons_of_mem value member)

theorem Preserves.ensures {program : Program σ ε α} (kept : Preserves view program) {holds : τ → Prop} {left : ε → σ → Prop}
    (weaker : ∀ failure state, holds (view state) → left failure state) :
    Ensures (fun state => holds (view state)) program (fun _ state => holds (view state)) left := by
  refine ⟨fun state begun => ?_⟩
  rcases run : program.on state with ⟨result, final⟩
  have same : view final = view state := by
    rw [← kept.same state, run]
  have ended : holds (view final) := same ▸ begun
  cases result with
  | error failure => exact .inr ⟨failure, final, rfl, weaker failure final ended⟩
  | ok value => exact .inl ⟨value, final, rfl, ended⟩

end

end Outcomes
