import Mathlib.Data.List.Basic

namespace LineFile

def lineFeed : UInt8 := 0x0A

/-- The bytes up to the first line feed and this line feed, or all bytes where there is none. -/
def readLine : List UInt8 → List UInt8
  | [] => []
  | byte :: rest => if byte = lineFeed then [byte] else byte :: readLine rest

def IsLine (line : List UInt8) : Prop := ∃ body, lineFeed ∉ body ∧ line = body ++ [lineFeed]

def linesFrom : List UInt8 → List UInt8 → List (List UInt8)
  | _, [] => []
  | current, byte :: rest =>
    if byte = lineFeed then (current ++ [byte]) :: linesFrom [] rest else linesFrom (current ++ [byte]) rest

def completeLines (bytes : List UInt8) : List (List UInt8) := linesFrom [] bytes

def lineAt (bytes : List UInt8) (start : Nat) : Option (List UInt8) :=
  if lineFeed ∈ bytes.drop start then some (readLine (bytes.drop start)) else none

theorem IsLine.ne_nil {line : List UInt8} (isLine : IsLine line) : line ≠ [] := by
  obtain ⟨body, -, rfl⟩ := isLine
  simp

theorem readLine_line {line : List UInt8} (isLine : IsLine line) (rest : List UInt8) : readLine (line ++ rest) = line := by
  obtain ⟨body, single, rfl⟩ := isLine
  induction body with
  | nil => rfl
  | cons byte more ih =>
    have other : byte ≠ lineFeed := fun same => single (same ▸ List.mem_cons_self)
    have later := ih fun member => single (List.mem_cons_of_mem byte member)
    rw [List.cons_append, List.cons_append, readLine, if_neg other, later]

theorem readLine_isLine {bytes : List UInt8} (visible : lineFeed ∈ bytes) :
    ∃ rest, IsLine (readLine bytes) ∧ bytes = readLine bytes ++ rest := by
  induction bytes with
  | nil => cases visible
  | cons byte more ih =>
    by_cases feed : byte = lineFeed
    · refine ⟨more, ⟨[], by simp, ?_⟩, ?_⟩
      · rw [readLine, if_pos feed, feed, List.nil_append]
      · rw [readLine, if_pos feed, List.singleton_append]
    · obtain ⟨rest, ⟨body, single, whole⟩, split⟩ := ih ((List.mem_cons.1 visible).resolve_left fun same => feed same.symm)
      refine ⟨rest, ⟨byte :: body, ?_, ?_⟩, ?_⟩
      · intro member
        rcases List.mem_cons.1 member with same | later
        · exact feed same.symm
        · exact single later
      · rw [readLine, if_neg feed, whole, List.cons_append]
      · rw [readLine, if_neg feed, List.cons_append, ← split]

theorem linesFrom_line {body : List UInt8} (single : lineFeed ∉ body) (current rest : List UInt8) :
    linesFrom current (body ++ lineFeed :: rest) = (current ++ body ++ [lineFeed]) :: linesFrom [] rest := by
  induction body generalizing current with
  | nil => rw [List.nil_append, linesFrom, if_pos rfl, List.append_nil]
  | cons byte more ih =>
    have other : byte ≠ lineFeed := fun same => single (same ▸ List.mem_cons_self)
    have later := ih (fun member => single (List.mem_cons_of_mem byte member)) (current ++ [byte])
    rw [List.cons_append, linesFrom, if_neg other, later]
    simp

theorem completeLines_flatten {lines : List (List UInt8)} (all : ∀ line ∈ lines, IsLine line) (rest : List UInt8) :
    completeLines (lines.flatten ++ rest) = lines ++ completeLines rest := by
  induction lines with
  | nil => rfl
  | cons line more ih =>
    obtain ⟨body, single, rfl⟩ := all line List.mem_cons_self
    have later := ih fun other listed => all other (List.mem_cons_of_mem _ listed)
    rw [List.flatten_cons, List.append_assoc, List.append_assoc, List.singleton_append]
    unfold completeLines at later ⊢
    rw [linesFrom_line single, later]
    rfl

theorem lineAt_append {bytes : List UInt8} {start : Nat} {line : List UInt8} (atStart : lineAt bytes start = some line)
    (more : List UInt8) : lineAt (bytes ++ more) start = some line := by
  unfold lineAt at atStart
  split at atStart
  · rename_i visible
    obtain ⟨rest, isLine, split⟩ := readLine_isLine visible
    obtain rfl := Option.some.inj atStart
    have inside : start ≤ bytes.length := by
      by_contra beyond
      rw [List.drop_eq_nil_of_le (by omega)] at visible
      cases visible
    unfold lineAt
    rw [List.drop_append_of_le_length inside, if_pos (List.mem_append_left more visible)]
    rw [split, List.append_assoc, readLine_line isLine, readLine_line isLine]
  · cases atStart

def feeds (text : List UInt8) : List Nat := text.zipIdx.filterMap fun entry => if entry.1 = lineFeed then some entry.2 else none

theorem feeds_append (text more : List UInt8) : feeds (text ++ more) = feeds text ++ (feeds more).map (text.length + ·) := by
  have shifted : more.zipIdx text.length = more.zipIdx.map fun entry => (entry.1, text.length + entry.2) := List.zipIdx_eq_map_add
  rw [feeds, List.zipIdx_append, List.filterMap_append, Nat.zero_add, shifted, List.filterMap_map, feeds, feeds, List.map_filterMap]
  congr 2
  funext entry
  by_cases feed : entry.1 = lineFeed
  · simp [feed]
  · simp [feed]

theorem feeds_of_notMem {text : List UInt8} (single : lineFeed ∉ text) : feeds text = [] := by
  rw [feeds, List.filterMap_eq_nil_iff]
  intro entry member
  refine if_neg fun same => single ?_
  rw [← same]
  exact List.fst_mem_of_mem_zipIdx member

theorem feeds_lt {text : List UInt8} {place : Nat} (member : place ∈ feeds text) : place < text.length := by
  obtain ⟨entry, listed, found⟩ := List.mem_filterMap.1 member
  have below := List.snd_lt_of_mem_zipIdx listed
  split at found
  · obtain rfl := Option.some.inj found
    exact below
  · cases found

def joined (records : List (List UInt8)) : List UInt8 := records.flatMap (· ++ [lineFeed])

theorem joined_cons (record : List UInt8) (rest : List (List UInt8)) : joined (record :: rest) = record ++ lineFeed :: joined rest := by
  rw [joined, List.flatMap_cons, List.append_assoc, List.singleton_append]
  rfl

theorem exists_joined (text : List UInt8) :
    ∃ records last, text = joined records ++ last ∧ (∀ record ∈ records, lineFeed ∉ record) ∧ lineFeed ∉ last := by
  induction text with
  | nil => exact ⟨[], [], rfl, nofun, List.not_mem_nil⟩
  | cons byte rest ih =>
    obtain ⟨records, last, rfl, single, singleLast⟩ := ih
    by_cases feed : byte = lineFeed
    · refine ⟨[] :: records, last, ?_, List.forall_mem_cons.2 ⟨List.not_mem_nil, single⟩, singleLast⟩
      rw [joined_cons, feed, List.nil_append, List.cons_append]
    · have other : lineFeed ≠ byte := fun same => feed same.symm
      cases records with
      | nil => exact ⟨[], byte :: last, rfl, nofun, List.not_mem_cons_of_ne_of_not_mem other singleLast⟩
      | cons record more =>
        obtain ⟨here, later⟩ := List.forall_mem_cons.1 single
        refine ⟨(byte :: record) :: more, last, ?_,
          List.forall_mem_cons.2 ⟨List.not_mem_cons_of_ne_of_not_mem other here, later⟩, singleLast⟩
        rw [joined_cons, joined_cons, List.cons_append, List.cons_append]

theorem exists_joined_of_ended {text : List UInt8} (ended : text.getLast? = some lineFeed) :
    ∃ records, text = joined records ∧ ∀ record ∈ records, lineFeed ∉ record := by
  obtain ⟨records, last, rfl, single, singleLast⟩ := exists_joined text
  rw [List.getLast?_append] at ended
  cases atLast : last.getLast? with
  | none =>
    rw [List.getLast?_eq_none_iff] at atLast
    exact ⟨records, by rw [atLast, List.append_nil], single⟩
  | some byte =>
    rw [atLast, Option.some_or, Option.some.injEq] at ended
    exact absurd (ended ▸ List.mem_of_getLast? atLast) singleLast

theorem splitOn_joined {records : List (List UInt8)} (single : ∀ record ∈ records, lineFeed ∉ record) :
    (joined records).splitOn lineFeed = records ++ [[]] := by
  induction records with
  | nil => rfl
  | cons record rest ih =>
    obtain ⟨here, later⟩ := List.forall_mem_cons.1 single
    rw [joined_cons, List.splitOn_append_cons_self_of_not_mem here, ih later, List.cons_append]

end LineFile
