import Mathlib.Data.List.Sort

namespace ExceptRun

instance decidableEqOk {ε α : Type} [DecidableEq α] (outcome : Except ε α) (result : α) : Decidable (outcome = .ok result) :=
  match outcome with
  | .error _ => isFalse nofun
  | .ok value => decidable_of_iff (value = result) ⟨congrArg Except.ok, Except.ok.inj⟩

theorem exists_of_toBool {ε α : Type} {outcome : Except ε α} (passed : outcome.toBool = true) : ∃ result, outcome = .ok result := by
  cases outcome with
  | error failure => cases passed
  | ok result => exact ⟨result, rfl⟩

theorem bind_eq_ok {ε α β : Type} {first : Except ε α} {next : α → Except ε β} {result : β} :
    (first >>= next) = .ok result ↔ ∃ value, first = .ok value ∧ next value = .ok result := by
  cases first with
  | error failure => simp [bind, Except.bind]
  | ok value => simp [bind, Except.bind]

theorem guard_eq_ok {ε α : Type} {condition : Prop} [Decidable condition] {failure : ε} {rest : Except ε α} {result : α} :
    (if condition then .error failure else rest) = .ok result ↔ ¬condition ∧ rest = .ok result := by
  split <;> simp_all

theorem check_eq_ok {ε : Type} {condition : Prop} [Decidable condition] {failure : ε} :
    (if condition then .ok () else .error failure) = (.ok () : Except ε Unit) ↔ condition := by
  split <;> simp_all

theorem elim_eq_ok {ε α : Type} {found : Option α} {failure : ε} {result : α} :
    found.elim (.error failure) .ok = (.ok result : Except ε α) ↔ found = some result := by
  cases found with
  | none => simp
  | some value => simp

theorem mapError_eq_ok {ε δ α : Type} {outcome : Except ε α} {change : ε → δ} {result : α} :
    outcome.mapError change = .ok result ↔ outcome = .ok result := by
  cases outcome with
  | error failure => exact ⟨nofun, nofun⟩
  | ok value => exact ⟨fun same => congrArg Except.ok (Except.ok.inj same), fun same => congrArg Except.ok (Except.ok.inj same)⟩

theorem exists_partner {α β : Type} {relation : α → β → Prop} {values : List α} {results : List β}
    (pairs : List.Forall₂ relation values results) {value : α} (listed : value ∈ values) : ∃ result ∈ results, relation value result := by
  induction pairs with
  | nil => cases listed
  | cons first rest ih =>
    rcases List.mem_cons.1 listed with rfl | later
    · exact ⟨_, List.mem_cons_self, first⟩
    · obtain ⟨result, member, related⟩ := ih later
      exact ⟨result, List.mem_cons_of_mem _ member, related⟩

theorem mapM_eq_ok {ε α β : Type} {next : α → Except ε β} {values : List α} {results : List β} :
    values.mapM next = .ok results ↔ List.Forall₂ (fun value result => next value = .ok result) values results := by
  induction values generalizing results with
  | nil => simp [pure, Except.pure, eq_comm]
  | cons value rest ih =>
    rw [List.mapM_cons, bind_eq_ok, List.forall₂_cons_left_iff]
    constructor
    · rintro ⟨result, atValue, after⟩
      obtain ⟨others, atRest, made⟩ := bind_eq_ok.1 after
      exact ⟨result, others, atValue, ih.1 atRest, (Except.ok.inj made).symm⟩
    · rintro ⟨result, others, atValue, atRest, rfl⟩
      exact ⟨result, atValue, bind_eq_ok.2 ⟨others, ih.2 atRest, rfl⟩⟩

theorem exists_mapM {ε α β : Type} {next : α → Except ε β} {values : List α}
    (each : ∀ value ∈ values, ∃ result, next value = .ok result) : ∃ results, values.mapM next = .ok results := by
  induction values with
  | nil => exact ⟨[], rfl⟩
  | cons value rest ih =>
    obtain ⟨result, atValue⟩ := each value List.mem_cons_self
    obtain ⟨results, atRest⟩ := ih fun other member => each other (List.mem_cons_of_mem value member)
    exact ⟨result :: results, mapM_eq_ok.2 (.cons atValue (mapM_eq_ok.1 atRest))⟩

theorem mapM_perm {ε α β : Type} {next : α → Except ε β} {first second : List α} (perm : first.Perm second) {results : List β}
    (run : first.mapM next = .ok results) : ∃ others, second.mapM next = .ok others ∧ results.Perm others := by
  induction perm generalizing results with
  | nil => exact ⟨results, run, List.Perm.refl _⟩
  | @cons value first second perm ih =>
    obtain ⟨result, rest, atValue, atRest, rfl⟩ := List.forall₂_cons_left_iff.1 (mapM_eq_ok.1 run)
    obtain ⟨others, again, permuted⟩ := ih (mapM_eq_ok.2 atRest)
    exact ⟨result :: others, mapM_eq_ok.2 (.cons atValue (mapM_eq_ok.1 again)), permuted.cons result⟩
  | swap left right rest =>
    obtain ⟨rightResult, _, atRight, more, rfl⟩ := List.forall₂_cons_left_iff.1 (mapM_eq_ok.1 run)
    obtain ⟨leftResult, others, atLeft, atRest, rfl⟩ := List.forall₂_cons_left_iff.1 more
    exact ⟨leftResult :: rightResult :: others, mapM_eq_ok.2 (.cons atLeft (.cons atRight atRest)), List.Perm.swap _ _ _⟩
  | trans _ _ firstStep secondStep =>
    obtain ⟨middle, atMiddle, toMiddle⟩ := firstStep run
    obtain ⟨others, again, fromMiddle⟩ := secondStep atMiddle
    exact ⟨others, again, toMiddle.trans fromMiddle⟩

theorem forM_eq_ok {ε α : Type} {check : α → Except ε Unit} {values : List α} :
    values.forM check = .ok ⟨⟩ ↔ ∀ value ∈ values, check value = .ok ⟨⟩ := by
  induction values with
  | nil => simp [pure, Except.pure]
  | cons value rest ih =>
    rw [List.forM_eq_forM] at ih
    rw [List.forM_eq_forM, List.forM_cons, bind_eq_ok]
    constructor
    · rintro ⟨⟨⟩, atValue, atRest⟩
      exact List.forall_mem_cons.2 ⟨atValue, ih.1 atRest⟩
    · intro holds
      exact ⟨⟨⟩, holds value List.mem_cons_self, ih.2 fun other member => holds other (List.mem_cons_of_mem value member)⟩

theorem foldlM_invariant {ε σ α : Type} {step : σ → α → Except ε σ} (motive : List α → σ → Prop) {values : List α} {start final : σ}
    (initial : motive [] start)
    (preserve : ∀ done value rest state next, values = done ++ value :: rest → motive done state → step state value = .ok next →
      motive (done ++ [value]) next)
    (run : values.foldlM step start = .ok final) : motive values final := by
  suffices general : ∀ rest done state, values = done ++ rest → motive done state → rest.foldlM step state = .ok final →
      motive values final from general values [] start rfl initial run
  intro rest
  induction rest with
  | nil =>
    intro done state split holds finish
    simp only [List.append_nil] at split
    cases finish
    exact split ▸ holds
  | cons value rest ih =>
    intro done state split holds finish
    rw [List.foldlM_cons, bind_eq_ok] at finish
    obtain ⟨next, stepped, remaining⟩ := finish
    exact ih (done ++ [value]) next (by simp [split]) (preserve done value rest state next split holds stepped) remaining

theorem foldlM_progress {ε σ α : Type} {step : σ → α → Except ε σ} (motive : List α → σ → Prop) {values : List α} {start : σ}
    (initial : motive [] start)
    (progress : ∀ done value rest state, values = done ++ value :: rest → motive done state →
      ∃ next, step state value = .ok next ∧ motive (done ++ [value]) next) :
    ∃ final, values.foldlM step start = .ok final ∧ motive values final := by
  suffices general : ∀ rest done state, values = done ++ rest → motive done state →
      ∃ final, rest.foldlM step state = .ok final ∧ motive values final from general values [] start rfl initial
  intro rest
  induction rest with
  | nil =>
    intro done state split holds
    exact ⟨state, rfl, by simpa [split] using holds⟩
  | cons value rest ih =>
    intro done state split holds
    obtain ⟨next, stepped, kept⟩ := progress done value rest state split holds
    obtain ⟨final, finish, atEnd⟩ := ih (done ++ [value]) next (by simp [split]) kept
    exact ⟨final, by rw [List.foldlM_cons, stepped]; exact finish, atEnd⟩

theorem foldlM_view {ε σ α : Type} {step : σ → α → Except ε σ} {view : σ → σ}
    (commutes : ∀ state value, step (view state) value = (step state value).map view) (values : List α) (start : σ) :
    values.foldlM step (view start) = (values.foldlM step start).map view := by
  induction values generalizing start with
  | nil => rfl
  | cons value rest ih =>
    rw [List.foldlM_cons, List.foldlM_cons, commutes]
    cases step start value with
    | error failure => rfl
    | ok next => exact ih next

section

variable {ε α β : Type} {probe : α → Except ε (Option β)} {values : List α}

theorem exists_findSomeM (each : ∀ value ∈ values, ∃ found, probe value = .ok found) : ∃ found, values.findSomeM? probe = .ok found := by
  induction values with
  | nil => exact ⟨none, rfl⟩
  | cons value rest ih =>
    obtain ⟨found, here⟩ := each value List.mem_cons_self
    obtain ⟨later, run⟩ := ih fun other listed => each other (List.mem_cons_of_mem value listed)
    cases found with
    | some answer => exact ⟨some answer, bind_eq_ok.2 ⟨some answer, here, rfl⟩⟩
    | none => exact ⟨later, bind_eq_ok.2 ⟨none, here, run⟩⟩

theorem findSomeM_some {answer : β} (run : values.findSomeM? probe = .ok (some answer)) : ∃ value ∈ values, probe value = .ok (some answer) := by
  induction values with
  | nil => cases run
  | cons value rest ih =>
    obtain ⟨found, here, run⟩ := bind_eq_ok.1 run
    cases found with
    | some first =>
      obtain rfl := Option.some.inj (Except.ok.inj run)
      exact ⟨value, List.mem_cons_self, here⟩
    | none =>
      obtain ⟨other, listed, probed⟩ := ih run
      exact ⟨other, List.mem_cons_of_mem value listed, probed⟩

theorem findSomeM_fails (nothing : ∀ value ∈ values, ∀ answer, probe value ≠ .ok (some answer)) {value : α} (listed : value ∈ values)
    (fails : ∀ found, probe value ≠ .ok found) (found : Option β) : values.findSomeM? probe ≠ .ok found := by
  induction values with
  | nil => cases listed
  | cons first rest ih =>
    intro run
    obtain ⟨outcome, here, run⟩ := bind_eq_ok.1 run
    cases outcome with
    | some answer => exact nothing first List.mem_cons_self answer here
    | none =>
      rcases List.mem_cons.1 listed with rfl | later
      · exact fails none here
      · exact ih (fun other member => nothing other (List.mem_cons_of_mem first member)) later run

end

end ExceptRun
