import Mathlib.Data.List.Induction

namespace HashChain

structure Link (η ε : Type) where
  previous : η
  entry : ε
  hash : η

variable {η ε : Type}

def lastHash (start : η) (links : List (Link η ε)) : η := links.getLast?.elim start Link.hash

/-- Every link is tied to the hash before it, and its own hash is one that `seals` allows for it. -/
def IsChain (seals : η → ε → η → Prop) : η → List (Link η ε) → Prop
  | _, [] => True
  | start, link :: rest => link.previous = start ∧ seals link.previous link.entry link.hash ∧ IsChain seals link.hash rest

variable {seals : η → ε → η → Prop} {start : η}

@[simp]
theorem lastHash_nil : lastHash start ([] : List (Link η ε)) = start := rfl

@[simp]
theorem lastHash_cons (link : Link η ε) (rest : List (Link η ε)) : lastHash start (link :: rest) = lastHash link.hash rest := by
  cases rest with
  | nil => rfl
  | cons next others => rw [lastHash, lastHash, List.getLast?_cons_cons, List.getLast?_cons]; rfl

@[simp]
theorem lastHash_append (links : List (Link η ε)) (link : Link η ε) : lastHash start (links ++ [link]) = link.hash := by
  simp [lastHash]

theorem lastHash_mem (start : η) (links : List (Link η ε)) :
    (links = [] ∧ lastHash start links = start) ∨ (links ≠ [] ∧ ∃ link ∈ links, lastHash start links = link.hash) := by
  rcases List.eq_nil_or_concat links with rfl | ⟨front, last, rfl⟩
  · exact .inl ⟨rfl, rfl⟩
  · rw [List.concat_eq_append]
    exact .inr ⟨by simp, last, by simp, lastHash_append front last⟩

theorem isChain_append {links : List (Link η ε)} {link : Link η ε} :
    IsChain seals start (links ++ [link]) ↔
      IsChain seals start links ∧ link.previous = lastHash start links ∧ seals link.previous link.entry link.hash := by
  induction links generalizing start with
  | nil => simp [IsChain]
  | cons first rest ih => simp [IsChain, ih, and_assoc]

theorem IsChain.mono {seals' : η → ε → η → Prop} {links : List (Link η ε)} (chain : IsChain seals start links)
    (weaker : ∀ link ∈ links, seals link.previous link.entry link.hash → seals' link.previous link.entry link.hash) :
    IsChain seals' start links := by
  induction links generalizing start with
  | nil => trivial
  | cons first rest ih =>
    obtain ⟨tied, bound, chained⟩ := chain
    exact ⟨tied, weaker first List.mem_cons_self bound, ih chained fun link member => weaker link (List.mem_cons_of_mem first member)⟩

theorem IsChain.seals_mem {links : List (Link η ε)} (chain : IsChain seals start links) :
    ∀ link ∈ links, seals link.previous link.entry link.hash := by
  induction links generalizing start with
  | nil => nofun
  | cons first rest ih => exact List.forall_mem_cons.2 ⟨chain.2.1, ih chain.2.2⟩

/-- A chain commits to all of its links: chains of one length that end with one hash are the same, when at each place equal hashes
seal equal entries behind equal hashes. -/
theorem IsChain.eq_of_lastHash {seals' : η → ε → η → Prop} {first second : List (Link η ε)} (chain : IsChain seals start first)
    (chain' : IsChain seals' start second) (length : first.length = second.length)
    (separate : ∀ place link link', first[place]? = some link → second[place]? = some link' →
      link.previous = lastHash start (first.take place) → link'.previous = lastHash start (second.take place) → link.hash = link'.hash →
      link.previous = link'.previous ∧ link.entry = link'.entry)
    (same : lastHash start first = lastHash start second) : first = second := by
  induction first using List.reverseRecOn generalizing second with
  | nil => exact (List.length_eq_zero_iff.1 length.symm).symm
  | append_singleton rest link ih =>
    rcases List.eq_nil_or_concat second with rfl | ⟨rest', link', rfl⟩
    · simp at length
    · simp only [List.concat_eq_append] at *
      simp only [List.length_append, List.length_singleton, Nat.add_right_cancel_iff] at length
      obtain ⟨before, tied, -⟩ := isChain_append.1 chain
      obtain ⟨before', tied', -⟩ := isChain_append.1 chain'
      rw [lastHash_append, lastHash_append] at same
      have atLast := separate rest.length link link' (by simp) (by simp [length]) (by simpa using tied)
        (by simpa [length] using tied') same
      have prefixes : rest = rest' := by
        refine ih before before' length (fun place one other atOne atOther => ?_) (tied.symm.trans (atLast.1.trans tied'))
        have inside : place < rest.length := (List.getElem?_eq_some_iff.1 atOne).1
        have inside' : place < rest'.length := length ▸ inside
        have found := separate place one other (by rw [List.getElem?_append_left inside]; exact atOne)
          (by rw [List.getElem?_append_left inside']; exact atOther)
        rwa [List.take_append_of_le_length (Nat.le_of_lt inside), List.take_append_of_le_length (Nat.le_of_lt inside')] at found
      have last : link = link' := by
        cases link
        cases link'
        simp only at atLast same
        rw [atLast.1, atLast.2, same]
      rw [prefixes, last]

end HashChain
