import Legitimacy.ExactSolidarity
import Mathlib.Algebra.Order.Field.Basic

namespace Legitimacy.Diagnostics

open ExceptRun

section

variable {tolerance : ℚ} {original shocked : RationalAllocation} {isLoss : Bool} {members : List Claimant}

def Moved (tolerance before after : ℚ) : Prop := |before - after| > slack tolerance before after
deriving Decidable

/-- The ratio of the shares before and after, where a movement within the tolerance counts as none. -/
def tolerantRatio (tolerance : ℚ) (original shocked : RationalAllocation) (member : Claimant) : ℚ :=
  if Shares (Moved tolerance) original shocked member then shockRatio original shocked member else 1

def holders (tolerance : ℚ) (original : RationalAllocation) (members : List Claimant) : List Claimant :=
  members.filter (tolerance < shareOf original ·.id)

/-- All members with a share keep the same part of it. -/
def SharedEvenly (tolerance : ℚ) (original shocked : RationalAllocation) (members : List Claimant) : Prop :=
  holders tolerance original members = [] ∨ ∃ reference ∈ holders tolerance original members, ∀ holder ∈ holders tolerance original members,
    |tolerantRatio tolerance original shocked holder - tolerantRatio tolerance original shocked reference| ≤ tolerance
deriving Decidable

def MoveTogether (tolerance : ℚ) (original shocked : RationalAllocation) (members : List Claimant) : Prop :=
  (∀ holder ∈ holders tolerance original members, Shares (Moved tolerance) original shocked holder) ∨
    ∀ holder ∈ holders tolerance original members, ¬Shares (Moved tolerance) original shocked holder
deriving Decidable

theorem changed_eq : members.filter (Shares (Changed tolerance) original shocked ·) =
    (holders tolerance original members).filter (Shares (Moved tolerance) original shocked ·) := by
  rw [holders, List.filter_filter]
  refine List.filter_congr fun member _ => ?_
  rw [← Bool.decide_and, decide_eq_decide, and_comm]
  rfl

theorem ratio_apart (tolerant : 0 ≤ tolerance) {member : Claimant} (held : tolerance < shareOf original member.id)
    (nonnegative : 0 ≤ shareOf shocked member.id) (moved : Shares (Moved tolerance) original shocked member) :
    tolerance < |shockRatio original shocked member - 1| := by
  unfold Shares Moved slack at moved
  unfold shockRatio
  generalize shareOf original member.id = before at *
  generalize shareOf shocked member.id = after at *
  have positive : 0 < before := tolerant.trans_lt held
  have relative : |after / before - 1| = |before - after| / before := by
    rw [div_sub_one positive.ne', abs_div, abs_of_pos positive, abs_sub_comm]
  rw [relative, lt_div_iff₀ positive]
  rw [abs_of_nonneg nonnegative, abs_of_pos positive] at moved
  have spare : 0 ≤ tolerance * after := mul_nonneg tolerant nonnegative
  linarith

theorem ClassPasses.even_of_together (tolerant : 0 ≤ tolerance) (passes : ClassPasses tolerance original shocked isLoss members)
    (together : MoveTogether tolerance original shocked members) : SharedEvenly tolerance original shocked members := by
  rcases together with all | none
  · have same : members.filter (Shares (Changed tolerance) original shocked ·) = holders tolerance original members := by
      rw [changed_eq, List.filter_eq_self]
      exact fun holder held => decide_eq_true (all holder held)
    cases split : holders tolerance original members with
    | nil => exact .inl split
    | cons first rest =>
      refine .inr ⟨first, ?_, fun holder held => ?_⟩
      · rw [split]
        exact List.mem_cons_self
      · have ratio : ∀ holder ∈ holders tolerance original members, tolerantRatio tolerance original shocked holder = shockRatio original shocked holder :=
          fun holder held => if_pos (all holder held)
        rw [ratio holder held, ratio first (split ▸ List.mem_cons_self)]
        rcases List.mem_cons.1 (split ▸ held) with rfl | later
        · rwa [sub_self, abs_zero]
        · exact passes.proportion first rest (same.trans split) holder later
  · cases split : holders tolerance original members with
    | nil => exact .inl split
    | cons first rest =>
      have inside : first ∈ holders tolerance original members := split ▸ List.mem_cons_self
      refine .inr ⟨first, inside, fun holder held => ?_⟩
      rw [tolerantRatio, tolerantRatio, if_neg (none holder held), if_neg (none first inside), sub_self, abs_zero]
      exact tolerant

theorem together_of_even (tolerant : 0 ≤ tolerance) (nonnegative : ∀ id, 0 ≤ shareOf shocked id)
    (even : SharedEvenly tolerance original shocked members) : MoveTogether tolerance original shocked members := by
  rcases even with none | ⟨reference, referenceHeld, close⟩
  · exact .inl (none ▸ List.forall_mem_nil _)
  · have apart : ∀ holder ∈ holders tolerance original members, Shares (Moved tolerance) original shocked holder →
        tolerance < |tolerantRatio tolerance original shocked holder - 1| := by
      intro holder held moved
      rw [tolerantRatio, if_pos moved]
      exact ratio_apart tolerant (of_decide_eq_true (List.mem_filter.1 held).2) (nonnegative holder.id) moved
    by_cases moves : Shares (Moved tolerance) original shocked reference
    · refine .inl fun holder held => by_contra fun stays => ?_
      have near := close holder held
      rw [tolerantRatio, if_neg stays, abs_sub_comm] at near
      exact absurd near (not_le.2 (apart reference referenceHeld moves))
    · refine .inr fun holder held moved => ?_
      have near := close holder held
      have stays : tolerantRatio tolerance original shocked reference = 1 := if_neg moves
      rw [stays] at near
      exact absurd near (not_le.2 (apart holder held moved))

end

section

variable {tolerance : ℚ} {rule : ClassedRule} {claims : List RationalClaim} {estate : RationalEstate} {claimants : List Claimant} {scales : List ℚ}

/-- A shock that the checker makes, with the allocations before and after it. -/
structure TestedShock (tolerance : ℚ) (rule : ClassedRule) (claims : List RationalClaim) (estate : RationalEstate) (scales : List ℚ) (scale : ℚ)
    (original shocked : RationalAllocation) : Prop where
  listed : scale ∈ scales
  apart : tolerance ≤ |scale - 1|
  before : evaluateExactRule tolerance rule.toExactRule claims estate = .ok original
  after : evaluateExactRule tolerance rule.toExactRule claims { estate with total := estate.total * scale } = .ok shocked

theorem TestedShock.passes (tolerant : 0 ≤ tolerance) {name : String} {tested : Nat}
    (admitted : checkSolidarity tolerance rule claims estate claimants scales = .ok (.admissible name tested)) {scale : ℚ}
    {original shocked : RationalAllocation} (shock : TestedShock tolerance rule claims estate scales scale original shocked) {priorityClass : String}
    (declared : priorityClass ∈ rule.priorityClasses) (several : 2 ≤ (claimants.filter (·.priorityClass = priorityClass)).length) :
    ClassPasses tolerance original shocked (scale < 1) (claimants.filter (·.priorityClass = priorityClass)) := by
  obtain ⟨baseline, evaluated, shocks⟩ := (checkSolidarity_admissible tolerant).1 ⟨name, tested, admitted⟩
  obtain rfl := Except.ok.inj (evaluated.symm.trans shock.before)
  obtain ⟨-, outcome, evaluated, classes⟩ := shocks scale shock.listed shock.apart
  obtain rfl := Except.ok.inj (evaluated.symm.trans shock.after)
  exact classes priorityClass declared several

theorem TestedShock.nonnegative {scale : ℚ} {original shocked : RationalAllocation}
    (shock : TestedShock tolerance rule claims estate scales scale original shocked) (id : ClaimantId) : 0 ≤ shareOf shocked id := by
  obtain ⟨⟨⟩, -, allocated⟩ := bind_eq_ok.1 shock.after
  exact (exactRule_valid allocated).nonnegative id

/-- Under every shock of an admitted rule, the classes follow the shock; and they share it evenly exactly when in each class the members with a
share all move or all stay. -/
theorem checkSolidarity_even_iff (tolerant : 0 ≤ tolerance) {name : String} {tested : Nat}
    (admitted : checkSolidarity tolerance rule claims estate claimants scales = .ok (.admissible name tested)) :
    (∀ scale original shocked, TestedShock tolerance rule claims estate scales scale original shocked →
      ∀ priorityClass ∈ rule.priorityClasses, 2 ≤ (claimants.filter (·.priorityClass = priorityClass)).length →
        (∀ member ∈ claimants.filter (·.priorityClass = priorityClass), ¬Shares (AgainstShock tolerance (scale < 1)) original shocked member) ∧
        SharedEvenly tolerance original shocked (claimants.filter (·.priorityClass = priorityClass))) ↔
    ∀ scale original shocked, TestedShock tolerance rule claims estate scales scale original shocked →
      ∀ priorityClass ∈ rule.priorityClasses, 2 ≤ (claimants.filter (·.priorityClass = priorityClass)).length →
        MoveTogether tolerance original shocked (claimants.filter (·.priorityClass = priorityClass)) := by
  constructor
  · intro even scale original shocked shock priorityClass declared several
    exact together_of_even tolerant shock.nonnegative (even scale original shocked shock priorityClass declared several).2
  · intro together scale original shocked shock priorityClass declared several
    have passes := shock.passes tolerant admitted declared several
    exact ⟨passes.follow, passes.even_of_together tolerant (together scale original shocked shock priorityClass declared several)⟩

def ShockVerdict.isAdmissible : ShockVerdict → Bool
  | .admissible .. => true
  | .rejected .. => false

theorem admissible_of_check {run : Except LegitimacyError ShockVerdict} (passed : run.toOption.any ShockVerdict.isAdmissible = true) :
    ∃ name tested, run = .ok (.admissible name tested) := by
  cases run with
  | error failure => cases passed
  | ok verdict =>
    cases verdict with
    | admissible name tested => exact ⟨name, tested, rfl⟩
    | rejected name counterexample => cases passed

/-- Each gets what its id says, of an estate that large. -/
def payingRule (share : ClaimantId → ℚ → ℚ) : ClassedRule where
  allocateSpec claims estate := .ok (allocationOf (fun id => share id estate.total) claims)
  requiresFeasibleAllocation := true
  priorityClasses := ["standard"]

def austerityClaims : List RationalClaim := [⟨"alice", 1⟩, ⟨"bob", 1⟩]

def austerityClaimants : List Claimant := [⟨"alice", "standard"⟩, ⟨"bob", "standard"⟩]

/-- Both evaluations succeed, and the allocations are related. -/
def related (relation : RationalAllocation → RationalAllocation → Bool) :
    Except LegitimacyError RationalAllocation → Except LegitimacyError RationalAllocation → Bool
  | .ok original, .ok shocked => relation original shocked
  | _, _ => false

/-- Where the estate pays two fifths of it to each, the checker admits the rule, and both keep the same part. -/
theorem checkSolidarity_even_iff_equal :
    (∃ name tested, checkSolidarity (1 / 10 ^ 9) (payingRule fun _ total => total * 2 / 5) austerityClaims ⟨10, "units"⟩ austerityClaimants
      [4 / 5] = .ok (.admissible name tested)) ∧
    ∀ scale original shocked,
      TestedShock (1 / 10 ^ 9) (payingRule fun _ total => total * 2 / 5) austerityClaims ⟨10, "units"⟩ [4 / 5] scale original shocked →
      SharedEvenly (1 / 10 ^ 9) original shocked austerityClaimants := by
  obtain ⟨name, tested, admitted⟩ := @admissible_of_check
    (checkSolidarity (1 / 10 ^ 9) (payingRule fun _ total => total * 2 / 5) austerityClaims ⟨10, "units"⟩ austerityClaimants [4 / 5]) (by decide +kernel)
  refine ⟨⟨name, tested, admitted⟩, ?_⟩
  have even := (checkSolidarity_even_iff (by norm_num) admitted).2 ?_
  · exact fun scale original shocked shock => (even scale original shocked shock "standard" (by decide) (by decide)).2
  · intro scale original shocked shock priorityClass declared _
    obtain rfl := List.mem_singleton.1 declared
    obtain rfl := List.mem_singleton.1 shock.listed
    have together : related (fun original shocked => decide (MoveTogether (1 / 10 ^ 9) original shocked austerityClaimants))
        (evaluateExactRule (1 / 10 ^ 9) (payingRule fun _ total => total * 2 / 5).toExactRule austerityClaims ⟨10, "units"⟩)
        (evaluateExactRule (1 / 10 ^ 9) (payingRule fun _ total => total * 2 / 5).toExactRule austerityClaims ⟨10 * (4 / 5), "units"⟩) = true := by
      decide +kernel
    rw [shock.before, shock.after] at together
    exact of_decide_eq_true together

/-- The whole loss falls on "alice", and the checker admits the rule. -/
theorem lone_loser_admitted :
    (∃ name tested, checkSolidarity (1 / 10 ^ 9) (payingRule fun id total => if id = "alice" ∧ 10 ≤ total then 6 else 4) austerityClaims
      ⟨10, "units"⟩ austerityClaimants [4 / 5] = .ok (.admissible name tested)) ∧
    ∃ original shocked, TestedShock (1 / 10 ^ 9) (payingRule fun id total => if id = "alice" ∧ 10 ≤ total then 6 else 4) austerityClaims
      ⟨10, "units"⟩ [4 / 5] (4 / 5) original shocked ∧ ¬SharedEvenly (1 / 10 ^ 9) original shocked austerityClaimants := by
  refine ⟨admissible_of_check (by decide +kernel), ?_⟩
  have uneven : related (fun original shocked => decide (¬SharedEvenly (1 / 10 ^ 9) original shocked austerityClaimants))
      (evaluateExactRule (1 / 10 ^ 9) (payingRule fun id total => if id = "alice" ∧ 10 ≤ total then 6 else 4).toExactRule
        austerityClaims ⟨10, "units"⟩)
      (evaluateExactRule (1 / 10 ^ 9) (payingRule fun id total => if id = "alice" ∧ 10 ≤ total then 6 else 4).toExactRule
        austerityClaims ⟨10 * (4 / 5), "units"⟩) = true := by decide +kernel
  unfold related at uneven
  split at uneven
  case h_1 original shocked before after =>
    exact ⟨original, shocked, ⟨List.mem_singleton_self _, by norm_num [abs_of_neg], before, after⟩, of_decide_eq_true uneven⟩
  case h_2 => cases uneven

end

end Legitimacy.Diagnostics
