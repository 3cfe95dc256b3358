import Legitimacy.ExceptRun

namespace Metering

open ExceptRun

variable {ε σ κ α : Type}

/-- A state that charges are added to. What exceeds the limits goes on exceeding them. -/
structure Meter (σ κ : Type) where
  spend : σ → κ → σ
  Within : σ → Prop
  within_of_spend : ∀ {state charge}, Within (spend state charge) → Within state

namespace Meter

variable {meter : Meter σ κ}

def total (meter : Meter σ κ) (state : σ) (charges : List κ) : σ := charges.foldl meter.spend state

theorem total_append {state : σ} {first second : List κ} :
    meter.total state (first ++ second) = meter.total (meter.total state first) second := List.foldl_append

theorem within_of_total {state : σ} {charges : List κ} (within : meter.Within (meter.total state charges)) : meter.Within state := by
  induction charges generalizing state with
  | nil => exact within
  | cons charge rest ih => exact meter.within_of_spend (ih within)

/-- Within the limits, the check succeeds just when its condition holds and its charges do not exceed them, and adds the charges. -/
def Spends (meter : Meter σ κ) (check : σ → Except ε σ) (holds : Prop) (charges : List κ) : Prop :=
  ∀ state, meter.Within state → ∀ next, check state = .ok next ↔ holds ∧ next = meter.total state charges ∧ meter.Within next

variable {check later : σ → Except ε σ} {holds further : Prop} {charges more : List κ}

theorem spends_ok : meter.Spends (ε := ε) .ok True [] := by
  intro state within next
  constructor
  · rintro made
    obtain rfl := Except.ok.inj made
    exact ⟨trivial, rfl, within⟩
  · rintro ⟨-, rfl, -⟩
    rfl

theorem Spends.bind (first : meter.Spends check holds charges) (second : meter.Spends later further more) :
    meter.Spends (fun state => check state >>= later) (holds ∧ further) (charges ++ more) := by
  intro state within next
  rw [bind_eq_ok, total_append]
  constructor
  · rintro ⟨between, checked, rest⟩
    obtain ⟨here, rfl, inside⟩ := (first state within between).1 checked
    obtain ⟨there, same, final⟩ := (second _ inside next).1 rest
    exact ⟨⟨here, there⟩, same, final⟩
  · rintro ⟨⟨here, there⟩, rfl, final⟩
    have inside := within_of_total final
    exact ⟨_, (first state within _).2 ⟨here, rfl, inside⟩, (second _ inside _).2 ⟨there, rfl, final⟩⟩

theorem Spends.guard {bad : Prop} [Decidable bad] {failure : ε} (spends : meter.Spends check holds charges) :
    meter.Spends (fun state => if bad then .error failure else check state) (¬bad ∧ holds) charges := by
  intro state within next
  rw [guard_eq_ok, spends state within next, and_assoc]

theorem Spends.checkFirst {passes : Except ε Unit} {condition : Prop} (exactly : passes = .ok () ↔ condition) (spends : meter.Spends check holds charges) :
    meter.Spends (fun state => passes >>= fun _ => check state) (condition ∧ holds) charges := by
  intro state within next
  rw [bind_eq_ok]
  constructor
  · rintro ⟨⟨⟩, passed, rest⟩
    obtain ⟨here, spent⟩ := (spends state within next).1 rest
    exact ⟨⟨exactly.1 passed, here⟩, spent⟩
  · rintro ⟨⟨here, there⟩, spent⟩
    exact ⟨(), exactly.2 here, (spends state within next).2 ⟨there, spent⟩⟩

theorem Spends.checkLast {passes : Except ε Unit} {condition : Prop} (spends : meter.Spends check holds charges) (exactly : passes = .ok () ↔ condition) :
    meter.Spends (fun state => check state >>= fun next => passes >>= fun _ => .ok next) (holds ∧ condition) charges := by
  have rest : meter.Spends (fun next => passes >>= fun _ => .ok next) (condition ∧ True) [] := Spends.checkFirst exactly spends_ok
  have both := spends.bind rest
  rwa [and_true, List.append_nil] at both

theorem Spends.congr {other : Prop} {charges' : List κ} (spends : meter.Spends check holds charges) (same : holds ↔ other)
    (equal : charges = charges') : meter.Spends check other charges' := by
  subst equal
  intro state within next
  rw [spends state within next, same]

theorem Spends.foldlM {step : σ → α → Except ε σ} {fits : α → Prop} {cost : α → List κ} {values : List α}
    (each : ∀ value ∈ values, meter.Spends (fun state => step state value) (fits value) (cost value)) :
    meter.Spends (fun state => values.foldlM step state) (∀ value ∈ values, fits value) (values.flatMap cost) := by
  induction values with
  | nil => exact spends_ok.congr (by simp) rfl
  | cons value rest ih =>
    obtain ⟨here, later⟩ := List.forall_mem_cons.1 each
    exact (here.bind (ih later)).congr List.forall_mem_cons.symm rfl

/-- A check that tells an exceeded limit from other failures: it spends where it is valid and fits, and reports the overrun only where the
charges exceed the limits or it does not fit. -/
structure Metered (meter : Meter σ κ) (check : σ → Except ε σ) (overrun : ε) (valid fits : Prop) (charges : List κ) : Prop where
  spends : meter.Spends check (valid ∧ fits) charges
  blames : ∀ state, meter.Within state → check state = .error overrun → ¬(fits ∧ meter.Within (meter.total state charges))

section

variable {overrun : ε} {valid valid' fits fits' : Prop}

theorem metered_ok : meter.Metered .ok overrun True True [] := ⟨spends_ok.congr (by simp) rfl, fun _ _ failed => nomatch failed⟩

theorem metered_error {failure : ε} (other : failure ≠ overrun) : meter.Metered (fun _ => .error failure) overrun False True [] :=
  ⟨fun _ _ _ => iff_of_false nofun (by simp), fun _ _ failed => absurd (Except.error.inj failed) other⟩

theorem Metered.bind (first : meter.Metered check overrun valid fits charges) (second : meter.Metered later overrun valid' fits' more) :
    meter.Metered (fun state => check state >>= later) overrun (valid ∧ valid') (fits ∧ fits') (charges ++ more) := by
  refine ⟨(first.spends.bind second.spends).congr and_and_and_comm rfl, ?_⟩
  rintro state within failed ⟨⟨fitsFirst, fitsSecond⟩, inside⟩
  rw [total_append] at inside
  cases checked : check state with
  | error failure =>
    rw [checked] at failed
    obtain rfl : failure = overrun := Except.error.inj failed
    exact first.blames state within checked ⟨fitsFirst, within_of_total inside⟩
  | ok next =>
    rw [checked] at failed
    obtain ⟨-, rfl, between⟩ := (first.spends state within next).1 checked
    exact second.blames _ between failed ⟨fitsSecond, inside⟩

theorem Metered.unless {bad : Prop} [Decidable bad] {failure : ε} (other : failure ≠ overrun) (metered : meter.Metered check overrun valid fits charges) :
    meter.Metered (fun state => if bad then .error failure else check state) overrun (¬bad ∧ valid) fits charges := by
  refine ⟨metered.spends.guard.congr and_assoc.symm rfl, fun state within failed => ?_⟩
  split at failed
  · exact absurd (Except.error.inj failed) other
  · exact metered.blames state within failed

theorem Metered.within {bad : Prop} [Decidable bad] (metered : meter.Metered check overrun valid fits charges) :
    meter.Metered (fun state => if bad then .error overrun else check state) overrun valid (¬bad ∧ fits) charges := by
  refine ⟨metered.spends.guard.congr and_left_comm rfl, fun state within failed => ?_⟩
  rintro ⟨⟨good, fitting⟩, inside⟩
  rw [if_neg good] at failed
  exact metered.blames state within failed ⟨fitting, inside⟩

theorem Metered.congr {charges' : List κ} (metered : meter.Metered check overrun valid fits charges) (sameValid : valid ↔ valid')
    (sameFits : fits ↔ fits') (equal : charges = charges') : meter.Metered check overrun valid' fits' charges' := by
  subst equal
  rw [← propext sameValid, ← propext sameFits]
  exact metered

end

end Meter

/-- From a sound state, the check succeeds just when the condition holds, and leaves a sound state. -/
def Settles (sound : σ → Prop) (check : σ → Except ε σ) (valid : Prop) : Prop :=
  ∀ state, sound state → (∀ next, check state = .ok next → sound next ∧ valid) ∧ (valid → ∃ next, check state = .ok next)

theorem Settles.foldlM {sound : σ → Prop} {step : σ → α → Except ε σ} {valid : α → Prop} {values : List α}
    (each : ∀ value ∈ values, Settles sound (fun state => step state value) (valid value)) :
    Settles sound (fun state => values.foldlM step state) (∀ value ∈ values, valid value) := by
  induction values with
  | nil =>
    intro state isSound
    exact ⟨fun next made => ⟨Except.ok.inj made ▸ isSound, by simp⟩, fun _ => ⟨state, rfl⟩⟩
  | cons value rest ih =>
    obtain ⟨here, later⟩ := List.forall_mem_cons.1 each
    intro state isSound
    simp only [List.foldlM_cons, bind_eq_ok, List.forall_mem_cons]
    constructor
    · rintro next ⟨between, stepped, run⟩
      obtain ⟨inside, validHere⟩ := (here state isSound).1 between stepped
      obtain ⟨final, validLater⟩ := (ih later between inside).1 next run
      exact ⟨final, validHere, validLater⟩
    · rintro ⟨validHere, validLater⟩
      obtain ⟨between, stepped⟩ := (here state isSound).2 validHere
      obtain ⟨next, run⟩ := (ih later between ((here state isSound).1 between stepped).1).2 validLater
      exact ⟨next, between, stepped, run⟩

/-- A loop that also refuses a key it has seen: all values are valid, and no key comes twice. -/
theorem foldlM_distinct {sound : σ → Prop} {seen : σ → List κ} {step : σ → α → Except ε σ} {valid : α → Prop} {key : α → κ} {values : List α}
    (each : ∀ value ∈ values, ∀ state, sound state →
      (∀ next, step state value = .ok next → sound next ∧ seen next = key value :: seen state ∧ valid value ∧ key value ∉ seen state) ∧
        (valid value → key value ∉ seen state → ∃ next, step state value = .ok next)) :
    ∀ state, sound state →
      (∀ final, values.foldlM step state = .ok final →
        sound final ∧ (∀ value ∈ values, valid value) ∧ (values.map key).Nodup ∧ ∀ value ∈ values, key value ∉ seen state) ∧
      ((∀ value ∈ values, valid value) → (values.map key).Nodup → (∀ value ∈ values, key value ∉ seen state) →
        ∃ final, values.foldlM step state = .ok final) := by
  induction values with
  | nil =>
    intro state isSound
    exact ⟨fun final made => ⟨Except.ok.inj made ▸ isSound, by simp, List.nodup_nil, by simp⟩, fun _ _ _ => ⟨state, rfl⟩⟩
  | cons value rest ih =>
    obtain ⟨here, later⟩ := List.forall_mem_cons.1 each
    intro state isSound
    simp only [List.foldlM_cons, bind_eq_ok, List.forall_mem_cons, List.map_cons, List.nodup_cons]
    constructor
    · rintro final ⟨between, stepped, run⟩
      obtain ⟨inside, extended, validHere, fresh⟩ := (here state isSound).1 between stepped
      obtain ⟨soundFinal, validLater, distinct, others⟩ := (ih later between inside).1 final run
      simp only [extended, List.mem_cons, not_or] at others
      refine ⟨soundFinal, ⟨validHere, validLater⟩, ⟨fun again => ?_, distinct⟩, fresh, fun other member => (others other member).2⟩
      obtain ⟨other, member, same⟩ := List.mem_map.1 again
      exact (others other member).1 same
    · rintro ⟨validHere, validLater⟩ ⟨single, distinct⟩ ⟨fresh, others⟩
      obtain ⟨between, stepped⟩ := (here state isSound).2 validHere fresh
      obtain ⟨inside, extended, -, -⟩ := (here state isSound).1 between stepped
      have unseen : ∀ other ∈ rest, key other ∉ seen between := by
        intro other member
        rw [extended, List.mem_cons, not_or]
        exact ⟨fun same => single (same ▸ List.mem_map.2 ⟨other, member, rfl⟩), others other member⟩
      obtain ⟨final, run⟩ := (ih later between inside).2 validLater distinct unseen
      exact ⟨final, between, stepped, run⟩

end Metering
