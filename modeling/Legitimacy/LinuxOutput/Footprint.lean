import Legitimacy.LinuxOutput.FileSystem
import Mathlib.Data.List.Nodup

namespace Legitimacy.LinuxOutput

section

variable {files : FileSystem} {dir inode : Nat} {name : Name} {change : Node → Node}

theorem modify_nodes (files : FileSystem) (inode : Nat) (change : Node → Node) (other : Nat) :
    (files.modify inode change).nodes other = if other = inode then (files.nodes other).map change else files.nodes other := rfl

theorem allocate_nodes (files : FileSystem) (node : Node) (other : Nat) :
    (files.allocate node).nodes other = if other = files.next then some node else files.nodes other := rfl

theorem entries_modify_of_ne (apart : dir ≠ inode) : (files.modify inode change).entries dir = files.entries dir := by
  unfold FileSystem.entries
  rw [modify_nodes, if_neg apart]

theorem entries_modify_of_kept (kept : ∀ node, (change node).entries = node.entries) : (files.modify inode change).entries dir = files.entries dir := by
  unfold FileSystem.entries
  rw [modify_nodes]
  split
  · cases files.nodes dir with
    | none => rfl
    | some node => exact kept node
  · rfl

theorem exists_modify {property : Node → Prop} (holds : ∃ node, files.nodes dir = some node ∧ property node)
    (kept : ∀ node, property node → property (change node)) : ∃ node, (files.modify inode change).nodes dir = some node ∧ property node := by
  obtain ⟨node, found, has⟩ := holds
  rw [modify_nodes, found]
  split
  · exact ⟨change node, rfl, kept node has⟩
  · exact ⟨node, rfl, has⟩

theorem lt_next_of_nodes {node : Node} (found : files.nodes inode = some node) : inode < files.next := by
  by_contra above
  rw [files.unallocated inode (by omega)] at found
  cases found

theorem notMem_of_lookup (absent : ¬(files.lookup dir name).isSome = true) : name ∉ (files.entries dir).map Prod.fst := by
  intro member
  obtain ⟨entry, listed, rfl⟩ := List.mem_map.1 member
  have missing : files.lookup dir entry.1 = none := by simpa using absent
  have apart := List.lookup_eq_none_iff.1 missing entry listed
  simp at apart

theorem mem_of_lookup {target : Nat} (found : files.lookup dir name = some target) : (name, target) ∈ files.entries dir := by
  obtain ⟨before, after, split, -⟩ := List.lookup_eq_some_iff.1 found
  rw [split]
  simp

end

structure Placement where
  dir : Nat
  name : Name
  inode : Nat

def Placement.key (placement : Placement) : Nat × Name := (placement.dir, placement.name)

def namesIn (added : List Placement) (dir : Nat) : List (Name × Nat) :=
  (added.filter fun placement => placement.dir = dir).map fun placement => (placement.name, placement.inode)

theorem namesIn_cons (placement : Placement) (added : List Placement) (dir : Nat) :
    namesIn (placement :: added) dir =
      if placement.dir = dir then (placement.name, placement.inode) :: namesIn added dir else namesIn added dir := by
  unfold namesIn
  rw [List.filter_cons]
  by_cases here : placement.dir = dir
  · rw [if_pos here, if_pos (decide_eq_true here), List.map_cons]
  · rw [if_neg here, if_neg (by simpa using here)]

theorem mem_namesIn {added : List Placement} {dir : Nat} {entry : Name × Nat} :
    entry ∈ namesIn added dir ↔ ⟨dir, entry.1, entry.2⟩ ∈ added := by
  unfold namesIn
  rw [List.mem_map]
  constructor
  · rintro ⟨⟨_, name, inode⟩, member, rfl⟩
    obtain ⟨listed, same⟩ := List.mem_filter.1 member
    obtain rfl := of_decide_eq_true same
    exact listed
  · intro listed
    exact ⟨_, List.mem_filter.2 ⟨listed, decide_eq_true rfl⟩, rfl⟩

/-- All that `files` has more than `base` are names in directories and inodes that `base` does not use. -/
structure Adds (base files : FileSystem) (added : List Placement) : Prop where
  grown : base.next ≤ files.next
  old : ∀ inode node, base.nodes inode = some node →
    files.nodes inode = some { node with entries := namesIn added inode ++ node.entries }
  placed : ∀ placement ∈ added, ∃ node, base.nodes placement.dir = some node
  new : ∀ placement ∈ added, base.next ≤ placement.inode ∧ placement.inode < files.next
  fresh : ∀ placement ∈ added, placement.name ∉ (base.entries placement.dir).map Prod.fst
  distinct : (added.map Placement.key).Nodup

namespace Adds

variable {base files : FileSystem} {added : List Placement} {dir inode : Nat} {node : Node} {name : Name} {change : Node → Node}

theorem refl (base : FileSystem) : Adds base base [] where
  grown := Nat.le_refl _
  old := fun _ _ found => found
  placed := nofun
  new := nofun
  fresh := nofun
  distinct := List.nodup_nil

theorem entries (adds : Adds base files added) (there : base.nodes dir = some node) :
    files.entries dir = namesIn added dir ++ base.entries dir := by
  unfold FileSystem.entries
  rw [adds.old dir node there, there]
  rfl

theorem allocate (adds : Adds base files added) (node : Node) : Adds base (files.allocate node) added where
  grown := Nat.le_succ_of_le adds.grown
  old := by
    intro inode old found
    have below := lt_next_of_nodes found
    have grown := adds.grown
    rw [allocate_nodes, if_neg (by omega)]
    exact adds.old inode old found
  placed := adds.placed
  new := fun placement member => ⟨(adds.new placement member).1, Nat.lt_succ_of_lt (adds.new placement member).2⟩
  fresh := adds.fresh
  distinct := adds.distinct

theorem modify_new (adds : Adds base files added) (own : base.next ≤ inode) : Adds base (files.modify inode change) added where
  grown := adds.grown
  old := by
    intro other old found
    have below := lt_next_of_nodes found
    rw [modify_nodes, if_neg (by omega)]
    exact adds.old other old found
  placed := adds.placed
  new := adds.new
  fresh := adds.fresh
  distinct := adds.distinct

theorem place (adds : Adds base files added) (there : base.nodes dir = some node) (own : base.next ≤ inode) (allocated : inode < files.next)
    (free : name ∉ (files.entries dir).map Prod.fst) :
    Adds base (files.modify dir fun node => { node with entries := (name, inode) :: node.entries }) (⟨dir, name, inode⟩ :: added) := by
  rw [adds.entries there, List.map_append, List.mem_append, not_or] at free
  refine ⟨adds.grown, ?_, ?_, ?_, ?_, ?_⟩
  · intro other old found
    rw [modify_nodes, adds.old other old found]
    by_cases same : other = dir
    · subst same
      simp [namesIn]
    · rw [if_neg same]
      simp [namesIn, Ne.symm same]
  · rintro placement (_ | ⟨_, member⟩)
    · exact ⟨node, there⟩
    · exact adds.placed placement member
  · rintro placement (_ | ⟨_, member⟩)
    · exact ⟨own, allocated⟩
    · exact adds.new placement member
  · rintro placement (_ | ⟨_, member⟩)
    · exact free.2
    · exact adds.fresh placement member
  · refine List.nodup_cons.2 ⟨fun member => ?_, adds.distinct⟩
    obtain ⟨⟨_, _, target⟩, listed, same⟩ := List.mem_map.1 member
    cases same
    exact free.1 (List.mem_map.2 ⟨(name, target), mem_namesIn.2 listed, rfl⟩)

def renameIn (dir : Nat) (name fresh : Name) (placement : Placement) : Placement :=
  if placement.dir = dir ∧ placement.name = name then { placement with name := fresh } else placement

theorem namesIn_rename (added : List Placement) (dir other : Nat) (name fresh : Name) :
    namesIn (added.map (renameIn dir name fresh)) other =
      if other = dir then (namesIn added other).map (renamed name fresh) else namesIn added other := by
  induction added with
  | nil => split <;> rfl
  | cons placement rest ih =>
    obtain ⟨parent, label, target⟩ := placement
    rw [List.map_cons, namesIn_cons, namesIn_cons, ih]
    have sameDir : (renameIn dir name fresh ⟨parent, label, target⟩).dir = parent := by
      unfold renameIn
      split <;> rfl
    rw [sameDir]
    by_cases here : parent = other
    · subst here
      by_cases inside : parent = dir
      · subst inside
        by_cases same : label = name <;> simp [renameIn, renamed, same]
      · simp [renameIn, inside]
    · rw [if_neg here, if_neg here]

theorem map_renamed_of_notMem {entries : List (Name × Nat)} {fresh : Name} (absent : name ∉ entries.map Prod.fst) :
    entries.map (renamed name fresh) = entries := by
  refine (List.map_congr_left fun entry member => ?_).trans (List.map_id _)
  exact if_neg fun same : entry.1 = name => absent (same ▸ List.mem_map_of_mem member)

theorem rename (adds : Adds base files added) (listed : ⟨dir, name, inode⟩ ∈ added) {fresh : Name}
    (free : fresh ∉ (files.entries dir).map Prod.fst) :
    Adds base (files.modify dir fun node => { node with entries := node.entries.map (renamed name fresh) })
      (added.map (renameIn dir name fresh)) := by
  obtain ⟨node, there⟩ := adds.placed _ listed
  rw [adds.entries there, List.map_append, List.mem_append, not_or] at free
  have absent := adds.fresh _ listed
  refine ⟨adds.grown, ?_, ?_, ?_, ?_, ?_⟩
  · intro other old found
    rw [modify_nodes, adds.old other old found, namesIn_rename]
    by_cases same : other = dir
    · subst same
      have kept : old.entries.map (renamed name fresh) = old.entries := by
        refine map_renamed_of_notMem ?_
        unfold FileSystem.entries at absent
        rwa [show base.nodes _ = some old from found] at absent
      simp [kept]
    · rw [if_neg same, if_neg same]
  · intro placement member
    obtain ⟨source, from_, rfl⟩ := List.mem_map.1 member
    unfold renameIn
    split <;> exact adds.placed source from_
  · intro placement member
    obtain ⟨source, from_, rfl⟩ := List.mem_map.1 member
    unfold renameIn
    split <;> exact adds.new source from_
  · intro placement member
    obtain ⟨source, from_, rfl⟩ := List.mem_map.1 member
    unfold renameIn
    split
    · next same =>
      rw [show ({ source with name := fresh } : Placement).dir = dir from same.1]
      exact free.2
    · exact adds.fresh source from_
  · rw [List.map_map]
    refine List.Nodup.map_on ?_ (List.Nodup.of_map _ adds.distinct)
    intro first atFirst second atSecond same
    have unique := List.inj_on_of_nodup_map adds.distinct atFirst atSecond
    simp only [Function.comp_apply, renameIn, Placement.key] at same
    have noFresh : ∀ placement ∈ added, placement.dir = dir → placement.name ≠ fresh := by
      rintro ⟨parent, label, target⟩ member rfl rfl
      exact free.1 (List.mem_map.2 ⟨(_, target), mem_namesIn.2 member, rfl⟩)
    split at same <;> split at same
    · next left right => exact unique (Prod.ext (left.1.trans right.1.symm) (left.2.trans right.2.symm))
    · next left right =>
      obtain ⟨atDir, atName⟩ := Prod.mk.inj same
      exact absurd atName.symm (noFresh second atSecond (atDir.symm.trans left.1))
    · next left right =>
      obtain ⟨atDir, atName⟩ := Prod.mk.inj same
      exact absurd atName (noFresh first atFirst (atDir.trans right.1))
    · exact unique same

theorem namesIn_filter (added : List Placement) (dir other : Nat) (name : Name) :
    namesIn (added.filter fun placement => placement.key ≠ (dir, name)) other =
      if other = dir then (namesIn added other).filter fun entry => entry.1 ≠ name else namesIn added other := by
  induction added with
  | nil => split <;> rfl
  | cons placement rest ih =>
    obtain ⟨parent, label, target⟩ := placement
    rw [List.filter_cons, namesIn_cons]
    by_cases gone : parent = dir ∧ label = name
    · obtain ⟨rfl, rfl⟩ := gone
      rw [if_neg (by simp [Placement.key]), ih]
      by_cases here : parent = other
      · subst here
        simp
      · rw [if_neg here]
    · rw [if_pos (by simpa [Placement.key, or_iff_not_imp_left] using gone), namesIn_cons, ih]
      by_cases here : parent = other
      · subst here
        by_cases inside : parent = dir
        · subst inside
          simp [show label ≠ name from fun same => gone ⟨rfl, same⟩]
        · simp [inside]
      · rw [if_neg here, if_neg here]

theorem unlink (adds : Adds base files added) (listed : ⟨dir, name, inode⟩ ∈ added) :
    Adds base (files.modify dir fun node => { node with entries := node.entries.filter fun entry => entry.1 ≠ name })
      (added.filter fun placement => placement.key ≠ (dir, name)) := by
  have absent := adds.fresh _ listed
  refine ⟨adds.grown, ?_, ?_, ?_, ?_, ?_⟩
  · intro other old found
    rw [modify_nodes, adds.old other old found, namesIn_filter]
    by_cases same : other = dir
    · subst same
      have kept : (old.entries.filter fun entry => entry.1 ≠ name) = old.entries := by
        unfold FileSystem.entries at absent
        rw [show base.nodes _ = some old from found] at absent
        refine List.filter_eq_self.2 fun entry member => decide_eq_true fun same => ?_
        exact absent (same ▸ List.mem_map_of_mem member)
      rw [if_pos rfl, if_pos rfl, Option.map_some, List.filter_append, kept]
    · rw [if_neg same, if_neg same]
  · exact fun placement member => adds.placed placement (List.mem_filter.1 member).1
  · exact fun placement member => adds.new placement (List.mem_filter.1 member).1
  · exact fun placement member => adds.fresh placement (List.mem_filter.1 member).1
  · exact adds.distinct.sublist (List.filter_sublist.map _)

theorem own_of_lookup (adds : Adds base files added) (listed : ⟨dir, name, inode⟩ ∈ added) {target : Nat}
    (found : files.lookup dir name = some target) : base.next ≤ target := by
  obtain ⟨node, there⟩ := adds.placed _ listed
  have member := mem_of_lookup found
  rw [adds.entries there] at member
  rcases List.mem_append.1 member with here | before
  · exact (adds.new _ (mem_namesIn.1 here)).1
  · exact absurd (List.mem_map_of_mem before) (adds.fresh _ listed)

variable {front back : List Placement} {placement : Placement}

theorem key_ne_of_split (adds : Adds base files (front ++ placement :: back)) {other : Placement} (member : other ∈ front ++ back) :
    other.key ≠ placement.key := by
  have distinct := adds.distinct
  rw [List.map_append, List.map_cons, List.nodup_middle, List.nodup_cons, ← List.map_append] at distinct
  intro same
  exact distinct.1 (same ▸ List.mem_map_of_mem member)

theorem renameIn_of_ne {fresh : Name} {rest : List Placement} (apart : ∀ other ∈ rest, other.key ≠ (dir, name)) :
    rest.map (renameIn dir name fresh) = rest := by
  refine (List.map_congr_left fun other member => ?_).trans (List.map_id _)
  exact if_neg fun same => apart other member (Prod.ext same.1 same.2)

theorem rename_split (adds : Adds base files (front ++ placement :: back)) {fresh : Name} {target : Nat}
    (found : files.lookup placement.dir placement.name = some target) (free : fresh ∉ (files.entries placement.dir).map Prod.fst) :
    Adds base
      ((files.modify placement.dir fun node => { node with entries := node.entries.map (renamed placement.name fresh) }).modify target change)
      (front ++ { placement with name := fresh } :: back) := by
  have listed : ⟨placement.dir, placement.name, placement.inode⟩ ∈ front ++ placement :: back := by simp
  have moved := adds.rename listed free
  rw [List.map_append, List.map_cons] at moved
  have apart : ∀ other ∈ front ++ back, other.key ≠ placement.key := fun other member => adds.key_ne_of_split member
  rw [renameIn_of_ne fun other member => apart other (List.mem_append_left _ member),
    renameIn_of_ne fun other member => apart other (List.mem_append_right _ member)] at moved
  have itself : renameIn placement.dir placement.name fresh placement = { placement with name := fresh } := if_pos ⟨rfl, rfl⟩
  rw [itself] at moved
  exact moved.modify_new (adds.own_of_lookup listed found)

theorem unlink_split (adds : Adds base files (front ++ placement :: back)) :
    Adds base
      (files.modify placement.dir fun node => { node with entries := node.entries.filter fun entry => entry.1 ≠ placement.name })
      (front ++ back) := by
  have listed : ⟨placement.dir, placement.name, placement.inode⟩ ∈ front ++ placement :: back := by simp
  have removed := adds.unlink listed
  rw [List.filter_append, List.filter_cons, if_neg (by simp [Placement.key]), ← List.filter_append] at removed
  have kept : ((front ++ back).filter fun other => other.key ≠ (placement.dir, placement.name)) = front ++ back :=
    List.filter_eq_self.2 fun other member => decide_eq_true (adds.key_ne_of_split member)
  rwa [kept] at removed

theorem unlink_split_modify (adds : Adds base files (front ++ placement :: back)) {target : Nat}
    (found : files.lookup placement.dir placement.name = some target) :
    Adds base
      ((files.modify placement.dir fun node => { node with entries := node.entries.filter fun entry => entry.1 ≠ placement.name }).modify
        target change)
      (front ++ back) := by
  have listed : ⟨placement.dir, placement.name, placement.inode⟩ ∈ front ++ placement :: back := by simp
  exact adds.unlink_split.modify_new (adds.own_of_lookup listed found)

theorem namesIn_eq_nil (away : ∀ placement ∈ added, placement.dir ≠ dir) : namesIn added dir = [] := by
  refine List.eq_nil_iff_forall_not_mem.2 fun entry member => ?_
  exact away _ (mem_namesIn.1 member) rfl

theorem inside {start : FileSystem} {inner : List Placement} (outer : Adds start base added) (adds : Adds base files inner)
    (own : ∀ placement ∈ inner, start.next ≤ placement.dir) : Adds start files added where
  grown := Nat.le_trans outer.grown adds.grown
  old := by
    intro inode node found
    have below := lt_next_of_nodes found
    have apart : ∀ placement ∈ inner, placement.dir ≠ inode := by
      intro placement member same
      have above := own placement member
      omega
    rw [adds.old inode _ (outer.old inode node found), namesIn_eq_nil apart]
    rfl
  placed := outer.placed
  new := fun placement member => ⟨(outer.new placement member).1, Nat.lt_of_lt_of_le (outer.new placement member).2 adds.grown⟩
  fresh := outer.fresh
  distinct := outer.distinct

end Adds

def Filled (files : FileSystem) (filled : List (Nat × List UInt8)) : Prop :=
  ∀ file ∈ filled, ∃ node, files.nodes file.1 = some node ∧ node.kind = .regularFile ∧ node.content = file.2

namespace Filled

variable {files : FileSystem} {filled : List (Nat × List UInt8)} {inode : Nat} {change : Node → Node}

theorem lt_next (holds : Filled files filled) {file : Nat × List UInt8} (member : file ∈ filled) : file.1 < files.next := by
  obtain ⟨node, found, -⟩ := holds file member
  exact lt_next_of_nodes found

theorem allocate (holds : Filled files filled) (node : Node) : Filled (files.allocate node) filled := by
  intro file member
  have below := holds.lt_next member
  rw [allocate_nodes, if_neg (by omega)]
  exact holds file member

theorem modify_other (holds : Filled files filled) (apart : ∀ file ∈ filled, file.1 ≠ inode) : Filled (files.modify inode change) filled := by
  intro file member
  rw [modify_nodes, if_neg (apart file member)]
  exact holds file member

theorem modify_meta (holds : Filled files filled) (kept : ∀ node, (change node).kind = node.kind ∧ (change node).content = node.content) :
    Filled (files.modify inode change) filled := by
  intro file member
  refine exists_modify (holds file member) fun node ⟨regular, bytes⟩ => ?_
  exact ⟨(kept node).1.trans regular, (kept node).2.trans bytes⟩

end Filled

end Legitimacy.LinuxOutput
