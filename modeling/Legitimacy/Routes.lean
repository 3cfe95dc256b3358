import Mathlib.Data.List.Chain
import Mathlib.Data.List.Sublists

namespace Routes

variable {α : Type} {step : α → α → Prop}

/-- At least two stations, with a step from each to the next. -/
def Permitted (step : α → α → Prop) (route : List α) : Prop := 2 ≤ route.length ∧ route.IsChain step

/-- A permitted route with no direct step from its first station to its last. -/
def Bypass (step : α → α → Prop) (route : List α) : Prop :=
  Permitted step route ∧ ∀ first ∈ route.head?, ∀ last ∈ route.getLast?, ¬step first last

def MinimalBypass (step : α → α → Prop) (route : List α) : Prop :=
  Bypass step route ∧ ∀ shorter, shorter.Sublist route → shorter ≠ route → ¬Bypass step shorter

theorem bypass_triple {a b c : α} : Bypass step [a, b, c] ↔ step a b ∧ step b c ∧ ¬step a c := by
  simp [Bypass, Permitted, and_assoc]

theorem Bypass.three_le {route : List α} (bypass : Bypass step route) : 3 ≤ route.length := by
  obtain ⟨⟨two, chain⟩, noStep⟩ := bypass
  by_contra few
  obtain ⟨a, b, rfl⟩ := List.length_eq_two.1 (by omega : route.length = 2)
  exact noStep a rfl b rfl (List.isChain_cons_cons.1 chain).1

theorem Bypass.shortcut {a b c : α} {rest : List α} (bypass : Bypass step (a :: b :: c :: rest)) (past : step a c) :
    Bypass step (a :: c :: rest) := by
  obtain ⟨⟨-, chain⟩, noStep⟩ := bypass
  have afterFirst := (List.isChain_cons_cons.1 chain).2
  have afterSecond := (List.isChain_cons_cons.1 afterFirst).2
  refine ⟨⟨by simp, List.isChain_cons_cons.2 ⟨past, afterSecond⟩⟩, ?_⟩
  intro first isFirst last isLast
  have sameLast : (a :: b :: c :: rest).getLast? = (a :: c :: rest).getLast? := by simp [List.getLast?_cons_cons]
  exact noStep first isFirst last (sameLast ▸ isLast)

theorem Bypass.exists_triple {route : List α} (bypass : Bypass step route) :
    ∃ a b c, [a, b, c].Sublist route ∧ step a b ∧ step b c ∧ ¬step a c := by
  induction counted : route.length using Nat.strong_induction_on generalizing route with
  | _ count ih =>
    obtain ⟨a, b, c, rest, rfl⟩ : ∃ a b c rest, route = a :: b :: c :: rest := by
      match route, bypass.three_le with
      | a :: b :: c :: rest, _ => exact ⟨a, b, c, rest, rfl⟩
    by_cases past : step a c
    · have shorter : (a :: c :: rest).length < count := by
        simp only [← counted, List.length_cons]
        omega
      obtain ⟨x, y, z, inside, steps⟩ := ih _ shorter (bypass.shortcut past) rfl
      exact ⟨x, y, z, inside.trans ((List.sublist_cons_self b _).cons_cons a), steps⟩
    · have chain := List.isChain_cons_cons.1 bypass.1.2
      have next := (List.isChain_cons_cons.1 chain.2).1
      have first : [a, b, c].Sublist (a :: b :: c :: rest) := List.sublist_append_left [a, b, c] rest
      exact ⟨a, b, c, first, chain.1, next, past⟩

theorem minimalBypass_iff {route : List α} :
    MinimalBypass step route ↔ ∃ a b c, route = [a, b, c] ∧ step a b ∧ step b c ∧ ¬step a c := by
  constructor
  · rintro ⟨bypass, minimal⟩
    obtain ⟨a, b, c, inside, steps⟩ := bypass.exists_triple
    by_cases whole : [a, b, c] = route
    · exact ⟨a, b, c, whole.symm, steps⟩
    · exact absurd (bypass_triple.2 steps) (minimal _ inside whole)
  · rintro ⟨a, b, c, rfl, steps⟩
    refine ⟨bypass_triple.2 steps, ?_⟩
    intro shorter inside other bypass
    exact other (inside.eq_of_length_le bypass.three_le)

theorem foldl_extend_eq_sublists (route : List α) :
    route.foldl (fun found station => found ++ found.map (· ++ [station])) [[]] = route.sublists := by
  induction route using List.reverseRecOn with
  | nil => rfl
  | append_singleton before station ih => rw [List.foldl_append, ih, List.foldl_cons, List.foldl_nil, List.sublists_concat]

end Routes
