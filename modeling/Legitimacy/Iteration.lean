import Mathlib.Data.Nat.Basic
import Legitimacy.ExceptRun

namespace Iteration

open ExceptRun

section

variable {ε α σ : Type}

/-- An iterator yields exactly these items, one for each call, and then nothing any more. -/
inductive Yields (next : σ → Except ε (Option α × σ)) : σ → List α → Prop
  | done {state after : σ} (ends : next state = .ok (none, after)) (settled : next after = .ok (none, after)) : Yields next state []
  | item {state after : σ} {item : α} {items : List α} (made : next state = .ok (some item, after)) (rest : Yields next after items) :
    Yields next state (item :: items)

variable {next : σ → Except ε (Option α × σ)} {state : σ} {items : List α}

theorem Yields.congr {other : σ} (yields : Yields next other items) (same : next state = next other) : Yields next state items := by
  cases yields with
  | done ends settled => exact .done (same.trans ends) settled
  | item made rest => exact .item (same.trans made) rest

theorem Yields.wrap {τ : Type} {outer : τ → Except ε (Option α × τ)} (yields : Yields next state items) (carry : σ → τ)
    (wraps : ∀ {state item after}, next state = .ok (item, after) → outer (carry state) = .ok (item, carry after)) :
    Yields outer (carry state) items := by
  induction yields with
  | done ends settled => exact .done (wraps ends) (wraps settled)
  | item made _ ih => exact .item (wraps made) ih

/-- The items of an iterator, unless it takes more calls than these. -/
def drain (next : σ → Except ε (Option α × σ)) : Nat → σ → Except ε (Option (List α))
  | 0, _ => .ok none
  | calls + 1, state => do
    let (item, after) ← next state
    match item with
    | none => return some []
    | some item =>
      let rest ← drain next calls after
      return rest.map (item :: ·)

theorem Yields.drain (yields : Yields next state items) {calls : Nat} (enough : items.length < calls) :
    drain next calls state = .ok (some items) := by
  induction yields generalizing calls with
  | done ends settled =>
    obtain ⟨calls, rfl⟩ := Nat.exists_eq_add_one.2 (Nat.lt_of_le_of_lt (Nat.zero_le _) enough)
    exact bind_eq_ok.2 ⟨_, ends, rfl⟩
  | item made rest ih =>
    obtain ⟨calls, rfl⟩ := Nat.exists_eq_add_one.2 (Nat.lt_of_le_of_lt (Nat.zero_le _) enough)
    rw [List.length_cons, Nat.add_lt_add_iff_right] at enough
    exact bind_eq_ok.2 ⟨_, made, bind_eq_ok.2 ⟨_, ih enough, rfl⟩⟩

theorem yields_of_chain {β : Type} {carry : Option β → σ} {shown : β → α} {successor : β → Option β} {chain : List β} (ends : next (carry none) = .ok (none, carry none))
    (moves : ∀ item ∈ chain, next (carry (some item)) = .ok (some (shown item), carry (successor item)))
    (linked : chain.IsChain fun item following => successor item = some following)
    (last : ∀ item ∈ chain.getLast?, successor item = none) : Yields next (carry chain.head?) (chain.map shown) := by
  induction chain with
  | nil => exact .done ends ends
  | cons item rest ih =>
    refine .item (moves item List.mem_cons_self) ?_
    cases rest with
    | nil =>
      rw [last item rfl]
      exact .done ends ends
    | cons following rest =>
      obtain ⟨link, linked⟩ := List.isChain_cons_cons.1 linked
      rw [link]
      exact ih (fun other member => moves other (List.mem_cons_of_mem item member)) linked
        fun other isLast => last other (by rw [List.getLast?_cons_cons]; exact isLast)

end

end Iteration
