import Mathlib.Data.List.Basic
import Mathlib.Tactic.ByContra

namespace Windows

variable {α : Type}

def windows (size : Nat) (text : List α) : List (List α) :=
  (List.range (text.length + 1 - size)).map fun start => (text.drop start).take size

theorem mem_windows {size : Nat} {text part : List α} : part ∈ windows size text ↔ part.length = size ∧ part <:+: text := by
  simp only [windows, List.mem_map, List.mem_range]
  constructor
  · rintro ⟨start, below, rfl⟩
    refine ⟨?_, (List.take_prefix size _).isInfix.trans (List.drop_suffix start text).isInfix⟩
    rw [List.length_take, List.length_drop]
    omega
  · rintro ⟨rfl, before, after, rfl⟩
    refine ⟨before.length, ?_, ?_⟩
    · simp only [List.length_append]
      omega
    · rw [List.append_assoc, List.drop_left, List.take_left]

def chunks (size : Nat) (text : List α) : List (List α) :=
  (List.range ((text.length + size - 1) / size)).map fun index => (text.drop (index * size)).take size

theorem length_le_chunks {size : Nat} (positive : 0 < size) (text : List α) : text.length ≤ (text.length + size - 1) / size * size := by
  have remainder := Nat.mod_lt (text.length + size - 1) positive
  have division := Nat.div_add_mod' (text.length + size - 1) size
  omega

theorem flatten_chunks {size : Nat} (positive : 0 < size) (text : List α) : (chunks size text).flatten = text := by
  have first : ∀ count, ((List.range count).map fun index => (text.drop (index * size)).take size).flatten = text.take (count * size) := by
    intro count
    induction count with
    | zero => simp
    | succ count ih =>
      rw [List.range_succ, List.map_append, List.flatten_append, ih, List.map_singleton, List.flatten_singleton, ← List.take_add, Nat.succ_mul]
  rw [chunks, first, List.take_of_length_le (length_le_chunks positive text)]

def lastOf (size : Nat) (text : List α) : List α := text.drop (text.length - size)

theorem lastOf_suffix (size : Nat) (text : List α) : lastOf size text <:+ text := List.drop_suffix _ text

theorem length_lastOf (size : Nat) (text : List α) : (lastOf size text).length = min size text.length := by
  rw [lastOf, List.length_drop]
  omega

theorem suffix_lastOf {size : Nat} {text part : List α} (isEnd : part <:+ text) (short : part.length ≤ size) : part <:+ lastOf size text := by
  refine List.suffix_of_suffix_length_le isEnd (lastOf_suffix size text) ?_
  rw [length_lastOf]
  exact Nat.le_min.2 ⟨short, isEnd.length_le⟩

theorem lastOf_append (size : Nat) (text chunk : List α) : lastOf size (lastOf size text ++ chunk) = lastOf size (text ++ chunk) := by
  have suffix : lastOf size text ++ chunk <:+ text ++ chunk := by
    obtain ⟨before, whole⟩ := lastOf_suffix size text
    exact ⟨before, by rw [← List.append_assoc, whole]⟩
  have inner := lastOf_suffix size (lastOf size text ++ chunk)
  have outer := lastOf_suffix size (text ++ chunk)
  have same : (lastOf size (lastOf size text ++ chunk)).length = (lastOf size (text ++ chunk)).length := by
    simp only [length_lastOf, List.length_append]
    omega
  exact List.IsSuffix.eq_of_length (List.suffix_of_suffix_length_le (inner.trans suffix) outer (Nat.le_of_eq same)) same

def Found (wanted : List α → Prop) (text : List α) : Prop := ∃ part, part <:+: text ∧ wanted part

theorem Found.mono {wanted : List α → Prop} {text whole : List α} (found : Found wanted text) (inside : text <:+: whole) : Found wanted whole := by
  obtain ⟨part, isPart, isWanted⟩ := found
  exact ⟨part, isPart.trans inside, isWanted⟩

theorem found_append {wanted : List α → Prop} {overlap : Nat} (short : ∀ part, wanted part → part.length ≤ overlap + 1) (text chunk : List α) :
    Found wanted (text ++ chunk) ↔ Found wanted text ∨ Found wanted (lastOf overlap text ++ chunk) := by
  constructor
  · rintro ⟨part, isPart, isWanted⟩
    rcases List.infix_append_iff_ne_nil.1 isPart with before | after | ⟨left, right, -, some, rfl, isEnd, isStart⟩
    · exact .inl ⟨part, before, isWanted⟩
    · exact .inr ⟨part, List.infix_append_of_infix_right after, isWanted⟩
    · -- the part reaches into the chunk, so less than its whole length is before it
      have few : left.length ≤ overlap := by
        have bound := short _ isWanted
        have positive := List.length_pos_iff.2 some
        rw [List.length_append] at bound
        omega
      exact .inr ⟨left ++ right, List.infix_append_iff.2 (.inr (.inr ⟨left, right, rfl, suffix_lastOf isEnd few, isStart⟩)), isWanted⟩
  · rintro (before | around)
    · exact before.mono List.infix_append_left
    · refine around.mono (List.IsSuffix.isInfix ?_)
      obtain ⟨before, whole⟩ := lastOf_suffix overlap text
      exact ⟨before, by rw [← List.append_assoc, whole]⟩

end Windows
