import Legitimacy.StrongComponents
import Legitimacy.TopologicalOrder

namespace Legitimacy

open ExceptRun StrongComponents

section

variable {α : Type} [Ord α] [Std.TransOrd α]

theorem sorted_ascends (values : List α) : (sorted values).Pairwise fun left right => (compare left right).isLE := by
  let below : α → α → Prop := fun left right => (compare left right).isLE
  have total : Std.Total below := ⟨fun left right => by
    have swapped : compare right left = (compare left right).swap := Std.OrientedCmp.eq_swap
    simp only [below, swapped]
    cases compare left right <;> simp⟩
  have transitive : IsTrans α below := ⟨fun _ _ _ => Std.TransCmp.isLE_trans⟩
  exact List.pairwise_insertionSort below values

theorem sorted_ascends_strictly [Std.LawfulEqOrd α] {values : List α} (distinct : values.Nodup) :
    (sorted values).Pairwise fun left right => compare left right = .lt := by
  have apart : (sorted values).Nodup := (sorted_perm values).nodup_iff.2 distinct
  refine ((sorted_ascends values).and apart).imp fun {left right} both => ?_
  obtain ⟨le, different⟩ := both
  cases order : compare left right with
  | lt => rfl
  | eq => exact absurd (Std.LawfulEqCmp.eq_of_compare order) different
  | gt => simp [order] at le

theorem nodup_of_ascending {values : List α} (ascending : values.Pairwise fun left right => compare left right = .lt) :
    values.Nodup := by
  refine ascending.imp fun {left right} less equal => ?_
  have same : compare left right = .eq := by
    rw [equal]
    exact Std.ReflCmp.compare_self
  rw [same] at less
  cases less

theorem eq_of_ascending {first second : List α} (ascending : first.Pairwise fun left right => compare left right = .lt)
    (also : second.Pairwise fun left right => compare left right = .lt) (same : ∀ value, value ∈ first ↔ value ∈ second) :
    first = second := by
  have perm := (List.perm_ext_iff_of_nodup (nodup_of_ascending ascending) (nodup_of_ascending also)).2 same
  refine perm.eq_of_pairwise (fun left right _ _ less more => ?_) ascending also
  rw [Std.OrientedCmp.gt_of_lt less] at more
  cases more

end

/-- What a search reports: a component through which a cycle runs, its nodes in ascending order. -/
structure IsReport (graph : GovernanceGraph) (component : List NodeId) : Prop where
  ascending : component.Pairwise fun left right => compare left right = .lt
  cycle : IsCycle graph.Edge component

def TarjanState.rank (state : TarjanState) (node : NodeId) : Nat := (state.indices[node]?).getD 0

/-- The state of the search when `path` holds the open calls. -/
structure Tracked (graph : GovernanceGraph) (state : TarjanState) (path : List NodeId) : Prop where
  searching : Searching graph.Edge (· ∈ state.indices) state.rank state.stack path
  marked : ∀ node, (state.onStack[node]?).getD false = true ↔ node ∈ state.stack
  counted : ∀ node ∈ state.indices, state.rank node < state.index
  reported : ∀ component, component ∈ state.cycles ↔
    IsReport graph component ∧ ∀ node ∈ component, node ∈ state.indices ∧ node ∉ state.stack
  once : state.cycles.Nodup

/-- What later visits keep: the entries of the nodes already entered. -/
structure Extends (before after : TarjanState) : Prop where
  entries : ∀ node, node ∈ before.indices → after.indices[node]? = before.indices[node]? ∧ after.lowlinks[node]? = before.lowlinks[node]?
  index : before.index ≤ after.index

variable {node : NodeId}

theorem Extends.mem {before after : TarjanState} (grown : Extends before after) (entered : node ∈ before.indices) :
    node ∈ after.indices := by
  obtain ⟨index, found⟩ := mem_iff_lookup.1 entered
  exact mem_iff_lookup.2 ⟨index, (grown.entries node entered).1.trans found⟩

theorem Extends.rank {before after : TarjanState} (grown : Extends before after) (entered : node ∈ before.indices) :
    after.rank node = before.rank node := by
  rw [TarjanState.rank, (grown.entries node entered).1, TarjanState.rank]

theorem Extends.trans {first second third : TarjanState} (left : Extends first second) (right : Extends second third) :
    Extends first third := by
  refine ⟨fun node entered => ?_, Nat.le_trans left.index right.index⟩
  have early := left.entries node entered
  have late := right.entries node (left.mem entered)
  exact ⟨late.1.trans early.1, late.2.trans early.2⟩

def unvisited (graph : GovernanceGraph) (state : TarjanState) : List NodeId :=
  graph.nodes.keys.filter fun node => node ∉ state.indices

theorem mem_enter {state : TarjanState} {other : NodeId} :
    other ∈ (state.enter node).indices ↔ other = node ∨ other ∈ state.indices := by
  rw [TarjanState.enter, Std.ExtTreeMap.mem_insert, Std.LawfulEqCmp.compare_eq_iff_eq, @eq_comm _ node]

theorem enter_extends {state : TarjanState} (fresh : node ∉ state.indices) : Extends state (state.enter node) := by
  refine ⟨fun other entered => ?_, Nat.le_succ _⟩
  have different : other ≠ node := fun same => fresh (same ▸ entered)
  simp [TarjanState.enter, different]

theorem unvisited_lt {graph : GovernanceGraph} {before after : TarjanState} (grown : Extends before after)
    (inGraph : node ∈ graph.nodes) (fresh : node ∉ before.indices) (entered : node ∈ after.indices) :
    (unvisited graph after).length < (unvisited graph before).length := by
  have subset : (unvisited graph after).Sublist (unvisited graph before) := by
    refine List.monotone_filter_right _ fun other outside => ?_
    simp only [decide_eq_true_eq] at outside ⊢
    exact fun known => outside (grown.mem known)
  refine Nat.lt_of_le_of_ne subset.length_le fun same => ?_
  have equal := subset.eq_of_length same
  have listed : node ∈ unvisited graph before := List.mem_filter.2 ⟨Std.ExtTreeMap.mem_keys.2 inGraph, by simpa using fresh⟩
  rw [← equal] at listed
  exact of_decide_eq_true (List.mem_filter.1 listed).2 entered

theorem mem_successors {graph : GovernanceGraph} {next : NodeId} : next ∈ successors graph node ↔ graph.Edge node next := by
  unfold successors GovernanceGraph.Edge
  rw [mem_sorted, List.mem_map]
  simp only [List.mem_filter, decide_eq_true_eq, and_assoc]

theorem hasSelfLoop_iff {graph : GovernanceGraph} : hasSelfLoop graph node = true ↔ graph.Edge node node := by
  simp [hasSelfLoop, GovernanceGraph.Edge]

section

variable {graph : GovernanceGraph} {state current next : TarjanState} {node : NodeId} {path : List NodeId}

theorem Tracked.enter (tracked : Tracked graph state path) (fresh : node ∉ state.indices)
    (leads : ∀ caller ∈ path, Relation.ReflTransGen graph.Edge caller node) : Tracked graph (state.enter node) (node :: path) := by
  have grown := enter_extends fresh
  have own : (state.enter node).rank node = state.index := by simp [TarjanState.rank, TarjanState.enter]
  refine ⟨?_, fun other => ?_, fun other entered => ?_, fun component => ?_, tracked.once⟩
  · refine tracked.searching.enter fresh leads (fun other => mem_enter) (fun other entered => grown.rank entered) fun other entered => ?_
    rw [own]
    exact tracked.counted other entered
  · simp only [TarjanState.enter, lookup_insert, List.mem_cons]
    by_cases same : other = node
    · simp [same]
    · rw [if_neg same, tracked.marked other]
      exact (or_iff_right same).symm
  · rcases mem_enter.1 entered with rfl | earlier
    · rw [own]
      exact Nat.lt_succ_self _
    · rw [grown.rank earlier]
      exact (tracked.counted other earlier).trans (Nat.lt_succ_self _)
  · rw [show (state.enter node).cycles = state.cycles from Eq.refl _, tracked.reported component]
    refine and_congr_right fun _ => forall₂_congr fun other _ => ?_
    rw [mem_enter, show (state.enter node).stack = node :: state.stack from Eq.refl _, List.mem_cons, not_or]
    constructor
    · rintro ⟨entered, off⟩
      exact ⟨Or.inr entered, fun same => fresh (same ▸ entered), off⟩
    · rintro ⟨same | entered, different, off⟩
      · exact absurd same different
      · exact ⟨entered, off⟩

theorem Tracked.relink (tracked : Tracked graph state path) (links : BTreeMap NodeId Nat) :
    Tracked graph { state with lowlinks := links } path :=
  ⟨tracked.searching, tracked.marked, tracked.counted, tracked.reported, tracked.once⟩

theorem popComponent_eq {found rest : List NodeId} (apart : node ∉ found) (marks : BTreeMap NodeId Bool) :
    ∃ popped, popComponent node (found ++ node :: rest) marks = (found ++ [node], rest, popped) ∧
      ∀ other, popped[other]? = if other ∈ found ++ [node] then some false else marks[other]? := by
  induction found generalizing marks with
  | nil => exact ⟨marks.insert node false, by simp [popComponent], by simp⟩
  | cons top found ih =>
    rw [List.mem_cons, not_or] at apart
    obtain ⟨notTop, apart⟩ := apart
    obtain ⟨popped, run, marked⟩ := ih apart (marks.insert top false)
    refine ⟨popped, ?_, fun other => ?_⟩
    · rw [List.cons_append, popComponent, if_neg (Ne.symm notTop), run]
      rfl
    · rw [marked other, lookup_insert, List.cons_append]
      by_cases inside : other ∈ found ++ [node]
      · rw [if_pos inside, if_pos (List.mem_cons_of_mem top inside)]
      · rw [if_neg inside]
        by_cases same : other = top
        · rw [if_pos same, if_pos (same ▸ List.mem_cons_self)]
        · rw [if_neg same, if_neg (List.mem_cons.not.2 (not_or.2 ⟨same, inside⟩))]

section

variable {found stack component other : List NodeId}

theorem isReport_sorted (nodup : component.Nodup) (members : ∀ other, other ∈ component ↔ Connected graph.Edge node other) :
    IsReport graph (sorted component) ↔ component.length > 1 ∨ hasSelfLoop graph node = true := by
  rw [hasSelfLoop_iff, gt_iff_lt, ← isCycle_iff nodup members]
  exact ⟨fun report => report.cycle.perm (sorted_perm component).symm,
    fun cycle => ⟨sorted_ascends_strictly nodup, cycle.perm (sorted_perm component)⟩⟩

theorem IsReport.eq_sorted {value : NodeId} (report : IsReport graph other) (nodup : component.Nodup)
    (members : ∀ other, other ∈ component ↔ Connected graph.Edge node other) (member : value ∈ other) (inside : value ∈ component) :
    other = sorted component := by
  refine eq_of_ascending report.ascending (sorted_ascends_strictly nodup) fun further => ?_
  rw [report.cycle.mem_iff member, mem_sorted, members further]
  have between := (members value).1 inside
  exact ⟨between.trans, between.symm.trans⟩

variable (tracked : Tracked graph state (node :: path)) (shape : state.stack = found ++ node :: stack)

include tracked shape

theorem Tracked.reported_root (members : ∀ other, other ∈ found ++ [node] ↔ Connected graph.Edge node other) :
    (IsReport graph component ∧ ∀ other ∈ component, other ∈ state.indices ∧ other ∉ stack) ↔
      component ∈ state.cycles ∨ component = sorted (found ++ [node]) ∧ IsReport graph component := by
  obtain ⟨nodup, taken⟩ := (shape ▸ tracked.searching).taken
  have split : ∀ other, other ∈ state.stack ↔ other ∈ found ++ [node] ∨ other ∈ stack := by
    intro other
    simp only [shape, List.mem_append, List.mem_cons, List.not_mem_nil, or_false, or_assoc]
  rw [tracked.reported component]
  constructor
  · rintro ⟨report, off⟩
    by_cases shared : ∃ other ∈ component, other ∈ found ++ [node]
    · obtain ⟨other, member, inside⟩ := shared
      exact Or.inr ⟨report.eq_sorted nodup members member inside, report⟩
    · push Not at shared
      refine Or.inl ⟨report, fun other member => ⟨(off other member).1, fun onStack => ?_⟩⟩
      exact ((split other).1 onStack).elim (shared other member) (off other member).2
  · rintro (⟨report, off⟩ | ⟨rfl, report⟩)
    · exact ⟨report, fun other member => ⟨(off other member).1, fun onStack => (off other member).2 ((split other).2 (Or.inr onStack))⟩⟩
    · exact ⟨report, fun other member => taken other (mem_sorted.1 member)⟩

/-- A call whose link is its own index takes its component off the stack and reports it if a cycle runs through it. -/
theorem Tracked.leave_root (root : state.lowlinks[node]? = state.indices[node]?)
    (done : ∀ next, graph.Edge node next → next ∈ state.indices)
    (apart : ∀ other, other = node ∨ other ∈ found → ∀ next ∈ stack, ¬graph.Edge other next) :
    Tracked graph (state.leave graph node) path ∧ (state.leave graph node).stack = stack ∧
      (state.leave graph node).indices = state.indices ∧ (state.leave graph node).lowlinks = state.lowlinks ∧
      (state.leave graph node).index = state.index := by
  have searching := tracked.searching
  rw [shape] at searching
  obtain ⟨nodup, taken⟩ := searching.taken
  have notFound : node ∉ found := fun member => (List.nodup_append.1 nodup).2.2 node member node List.mem_cons_self rfl
  obtain ⟨popped, run, marked⟩ := @popComponent_eq node found stack notFound state.onStack
  have members := searching.component done apart
  have returns := isReport_sorted nodup members
  unfold TarjanState.leave
  rw [if_pos root, shape, run]
  refine ⟨⟨searching.close done apart, fun other => ?_, tracked.counted, fun component => ?_, ?_⟩, Eq.refl _, Eq.refl _, Eq.refl _, Eq.refl _⟩
  · rw [marked other]
    by_cases inside : other ∈ found ++ [node]
    · simpa [inside] using (taken other inside).2
    · rw [if_neg inside, tracked.marked other, shape]
      simp only [List.mem_append, List.mem_cons, List.not_mem_nil, or_false, not_or] at inside ⊢
      exact ⟨fun listed => (listed.resolve_left inside.1).resolve_left inside.2, fun beneath => Or.inr (Or.inr beneath)⟩
  · refine Iff.trans ?_ (tracked.reported_root shape members).symm
    dsimp only
    split
    · rename_i reports
      rw [List.mem_append, List.mem_singleton]
      exact or_congr_right (iff_self_and.2 fun same => same ▸ returns.2 reports)
    · rename_i silent
      refine (or_iff_left ?_).symm
      rintro ⟨rfl, report⟩
      exact silent (returns.1 report)
  · show (if _ then _ else _ : List (List NodeId)).Nodup
    split
    · refine List.nodup_append.2 ⟨tracked.once, List.nodup_singleton _, ?_⟩
      rintro component member _ last rfl
      obtain rfl := List.mem_singleton.1 last
      have off := ((tracked.reported _).1 member).2 node (mem_sorted.2 (by simp))
      exact off.2 (by simp [shape])
    · exact tracked.once

end

theorem Tracked.leave_inner {found stack : List NodeId} (tracked : Tracked graph state (node :: path))
    (shape : state.stack = found ++ node :: stack) (inner : state.lowlinks[node]? ≠ state.indices[node]?)
    (done : ∀ next, graph.Edge node next → next ∈ state.indices) {lower : NodeId} (member : lower ∈ stack)
    (leads : Relation.ReflTransGen graph.Edge node lower) :
    state.leave graph node = state ∧ Tracked graph state path := by
  have searching := tracked.searching
  rw [shape] at searching
  refine ⟨if_neg inner, ?_, tracked.marked, tracked.counted, tracked.reported, tracked.once⟩
  rw [shape]
  exact searching.retreat done member leads

end

section

/-- What the link of a call tells: it is the rank of the call, or of a node beneath it that the call leads to, and nothing that
the call found leads further down. -/
structure LinkBound (graph : GovernanceGraph) (state : TarjanState) (node : NodeId) (found : List NodeId) (low : Nat) : Prop where
  le : low ≤ state.index
  reaches : low < state.index → ∃ lower ∈ state.stack, state.rank lower = low ∧ Relation.ReflTransGen graph.Edge node lower
  bound : ∀ other ∈ found, ∀ next ∈ state.stack, graph.Edge other next → low ≤ state.rank next

structure Exploring (graph : GovernanceGraph) (state : TarjanState) (node : NodeId) (path done : List NodeId) (current : TarjanState) :
    Prop where
  tracked : Tracked graph current (node :: path)
  grown : Extends state current
  own : current.indices[node]? = some state.index
  link : ∃ found low, current.stack = found ++ node :: state.stack ∧ current.lowlinks[node]? = some low ∧
    LinkBound graph state node found low ∧ ∀ next ∈ done, next ∈ current.indices ∧ (next ∈ state.stack → low ≤ state.rank next)

/-- The call of `node` in `state` has ended. -/
structure Connects (graph : GovernanceGraph) (state : TarjanState) (node : NodeId) (path : List NodeId) (next : TarjanState) : Prop where
  tracked : Tracked graph next path
  grown : Extends state next
  entered : node ∈ next.indices
  link : ∃ found low, next.stack = found ++ state.stack ∧ next.lowlinks[node]? = some low ∧ LinkBound graph state node found low

variable {graph : GovernanceGraph} {state current next : TarjanState} {node successor : NodeId} {path done found more : List NodeId}
  {low candidate : Nat}

theorem LinkBound.lower (link : LinkBound graph state node found low)
    (reaches : candidate < low → ∃ lower ∈ state.stack, state.rank lower = candidate ∧ Relation.ReflTransGen graph.Edge node lower)
    (covered : ∀ other ∈ more, other ∈ found ∨ ∀ next ∈ state.stack, graph.Edge other next → candidate ≤ state.rank next) :
    LinkBound graph state node more (min low candidate) := by
  refine ⟨(Nat.min_le_left low candidate).trans link.le, fun beneath => ?_, fun other member next onStack edge => ?_⟩
  · by_cases less : candidate < low
    · rw [Nat.min_eq_right less.le]
      exact reaches less
    · rw [Nat.min_eq_left (Nat.not_lt.1 less)] at beneath ⊢
      exact link.reaches beneath
  · rcases covered other member with earlier | bound
    · exact (Nat.min_le_left low candidate).trans (link.bound other earlier next onStack edge)
    · exact (Nat.min_le_right low candidate).trans (bound next onStack edge)

theorem TarjanState.lower_ok (present : state.lowlinks[node]? = some low) :
    state.lower node candidate = .ok { state with lowlinks := state.lowlinks.insert node (min low candidate) } := by
  simp [TarjanState.lower, TarjanState.lookup, present, bind, Except.bind]

theorem Exploring.relink (tracked : Tracked graph current (node :: path)) (grown : Extends state current) (fresh : node ∉ state.indices)
    (own : current.indices[node]? = some state.index) (shape : current.stack = found ++ node :: state.stack)
    (present : current.lowlinks[node]? = some low) (link : LinkBound graph state node found (min low candidate))
    (visited : ∀ next ∈ done, next ∈ current.indices ∧ (next ∈ state.stack → low ≤ state.rank next))
    (entered : successor ∈ current.indices) (bound : successor ∈ state.stack → candidate ≤ state.rank successor) :
    ∃ next, current.lower node candidate = .ok next ∧ Exploring graph state node path (done ++ [successor]) next := by
  refine ⟨_, TarjanState.lower_ok present, tracked.relink _, ⟨fun other known => ⟨(grown.entries other known).1, ?_⟩, grown.index⟩, own,
    found, min low candidate, shape, by simp, link, fun other member => ?_⟩
  · have different : other ≠ node := fun same => fresh (same ▸ known)
    rw [lookup_insert, if_neg different]
    exact (grown.entries other known).2
  · rcases List.mem_append.1 member with earlier | last
    · obtain ⟨seen, low⟩ := visited other earlier
      exact ⟨seen, fun onStack => (Nat.min_le_left _ _).trans (low onStack)⟩
    · obtain rfl := List.mem_singleton.1 last
      exact ⟨entered, fun onStack => (Nat.min_le_right _ _).trans (bound onStack)⟩

section

variable (exploring : Exploring graph state node path done current) (edge : graph.Edge node successor) (fresh : node ∉ state.indices)
  (stacked : ∀ other ∈ state.stack, other ∈ state.indices)

include exploring stacked

theorem Exploring.beneath {other : NodeId} (member : other ∈ current.stack) (less : current.rank other < state.index) :
    other ∈ state.stack ∧ state.rank other = current.rank other := by
  obtain ⟨found, low, shape, -⟩ := exploring.link
  have searching := exploring.tracked.searching
  have ownRank : current.rank node = state.index := by simp [TarjanState.rank, exploring.own]
  rw [shape] at member searching
  rcases List.mem_append.1 member with newer | older
  · have above := searching.sides.1 other newer
    omega
  · rcases List.mem_cons.1 older with rfl | lower
    · omega
    · exact ⟨lower, (exploring.grown.rank (stacked other lower)).symm⟩

include edge fresh

variable {connect : NodeId → TarjanState → Except LegitimacyError TarjanState}

theorem Exploring.visit_entered (seen : successor ∈ current.indices) :
    ∃ next, visitSuccessor connect node current successor = .ok next ∧ Exploring graph state node path (done ++ [successor]) next := by
  obtain ⟨found, low, shape, present, link, visited⟩ := exploring.link
  unfold visitSuccessor
  rw [if_neg (by simpa using seen)]
  by_cases open_ : (current.onStack[successor]?).getD false = true
  · have onStack := (exploring.tracked.marked successor).1 open_
    have entry : current.indices[successor]? = some (current.rank successor) := by
      obtain ⟨index, entry⟩ := mem_iff_lookup.1 seen
      simp [TarjanState.rank, entry]
    have lowered : LinkBound graph state node found (min low (current.rank successor)) := by
      refine link.lower (fun less => ?_) fun other member => Or.inl member
      obtain ⟨lower, sameRank⟩ := exploring.beneath stacked onStack (less.trans_le link.le)
      exact ⟨successor, lower, sameRank, .single edge⟩
    obtain ⟨next, run, explored⟩ := Exploring.relink exploring.tracked exploring.grown fresh exploring.own shape present lowered visited seen
      fun member => (exploring.grown.rank (stacked successor member)).le
    refine ⟨next, ?_, explored⟩
    rw [if_pos open_]
    exact bind_eq_ok.2 ⟨current.rank successor, by simp [TarjanState.lookup, entry], run⟩
  · rw [if_neg open_]
    refine ⟨current, rfl, exploring.tracked, exploring.grown, exploring.own, found, low, shape, present, link, fun other member => ?_⟩
    rcases List.mem_append.1 member with earlier | last
    · exact visited other earlier
    · obtain rfl := List.mem_singleton.1 last
      refine ⟨seen, fun onStack => absurd ((exploring.tracked.marked other).2 ?_) open_⟩
      rw [shape]
      exact List.mem_append_right found (List.mem_cons_of_mem node onStack)

theorem Exploring.visit_called (seen : successor ∉ current.indices)
    {after : TarjanState} (run : connect successor current = .ok after) (connects : Connects graph current successor (node :: path) after) :
    ∃ next, visitSuccessor connect node current successor = .ok next ∧ Exploring graph state node path (done ++ [successor]) next := by
  obtain ⟨found, low, shape, present, link, visited⟩ := exploring.link
  obtain ⟨newer, inner, innerShape, innerPresent, innerLink⟩ := connects.link
  have nodeIn : node ∈ current.indices := mem_iff_lookup.2 ⟨state.index, exploring.own⟩
  have later : state.index < current.index := by
    have counted := exploring.tracked.counted node nodeIn
    rwa [TarjanState.rank, exploring.own] at counted
  have whole : after.stack = (newer ++ found) ++ node :: state.stack := by rw [innerShape, shape, List.append_assoc]
  have lowered : LinkBound graph state node (newer ++ found) (min low inner) := by
    refine link.lower (fun less => ?_) fun other member => ?_
    · obtain ⟨lower, onStack, rank, leads⟩ := innerLink.reaches (less.trans_le (link.le.trans later.le))
      obtain ⟨member, sameRank⟩ := exploring.beneath stacked onStack (by rw [rank]; exact less.trans_le link.le)
      exact ⟨lower, member, sameRank.trans rank, leads.head edge⟩
    · rcases List.mem_append.1 member with new | old
      · refine Or.inr fun next onStack leads => ?_
        rw [← exploring.grown.rank (stacked next onStack)]
        refine innerLink.bound other new next ?_ leads
        rw [shape]
        exact List.mem_append_right found (List.mem_cons_of_mem node onStack)
      · exact Or.inl old
  have kept : after.lowlinks[node]? = some low := ((connects.grown.entries node nodeIn).2).trans present
  obtain ⟨next, lowerRun, explored⟩ := Exploring.relink connects.tracked (exploring.grown.trans connects.grown) fresh
    (((connects.grown.entries node nodeIn).1).trans exploring.own) whole kept lowered
    (fun other member => ⟨connects.grown.mem (visited other member).1, (visited other member).2⟩) connects.entered
    fun member => absurd (exploring.grown.mem (stacked successor member)) seen
  refine ⟨next, ?_, explored⟩
  unfold visitSuccessor
  rw [if_pos (by simpa using seen)]
  refine bind_eq_ok.2 ⟨after, run, bind_eq_ok.2 ⟨inner, ?_, lowerRun⟩⟩
  simp [TarjanState.lookup, innerPresent]

theorem Exploring.visit
    (call : successor ∉ current.indices → ∃ next, connect successor current = .ok next ∧ Connects graph current successor (node :: path) next) :
    ∃ next, visitSuccessor connect node current successor = .ok next ∧ Exploring graph state node path (done ++ [successor]) next := by
  by_cases seen : successor ∈ current.indices
  · exact exploring.visit_entered edge fresh stacked seen
  · obtain ⟨after, run, connects⟩ := call seen
    exact exploring.visit_called edge fresh stacked seen run connects

end

theorem Exploring.start (tracked : Tracked graph state path) (fresh : node ∉ state.indices)
    (leads : ∀ caller ∈ path, Relation.ReflTransGen graph.Edge caller node) : Exploring graph state node path [] (state.enter node) := by
  refine ⟨tracked.enter fresh leads, enter_extends fresh, by simp [TarjanState.enter], [], state.index, rfl, by simp [TarjanState.enter],
    ⟨le_rfl, fun less => absurd less (Nat.lt_irrefl _), fun other member => ?_⟩, fun other member => ?_⟩
  · cases member
  · cases member

theorem Exploring.finish (exploring : Exploring graph state node path done current)
    (all : ∀ next, graph.Edge node next → next ∈ done) : Connects graph state node path (current.leave graph node) := by
  obtain ⟨tracked, grown, own, found, low, shape, present, link, visited⟩ := exploring
  have nodeIn : node ∈ current.indices := mem_iff_lookup.2 ⟨state.index, own⟩
  have explored : ∀ next, graph.Edge node next → next ∈ current.indices := fun next edge => (visited next (all next edge)).1
  by_cases root : low = state.index
  · have isRoot : current.lowlinks[node]? = current.indices[node]? := by rw [present, own, root]
    have stackRank : ∀ next ∈ state.stack, state.rank next < state.index := by
      intro next member
      have searching := tracked.searching
      rw [shape] at searching
      have entered : next ∈ current.stack := by rw [shape]; exact List.mem_append_right found (List.mem_cons_of_mem node member)
      have less := searching.sides.2 next member
      rw [show current.rank node = state.index by simp [TarjanState.rank, own]] at less
      by_cases known : next ∈ state.indices
      · rwa [grown.rank known] at less
      · rw [TarjanState.rank, Std.ExtTreeMap.getElem?_eq_none known]
        exact Nat.lt_of_le_of_lt (Nat.zero_le _) less
    obtain ⟨left, stack, indices, lowlinks, index⟩ := tracked.leave_root shape isRoot explored (by
      rintro other upper next member edge
      have beneath := stackRank next member
      rcases upper with rfl | newer
      · have above := (visited next (all next edge)).2 member
        omega
      · have above := link.bound other newer next member edge
        omega)
    refine ⟨left, ⟨fun other known => ?_, ?_⟩, ?_, [], low, stack, ?_, link.le, link.reaches, fun other member => ?_⟩
    · rw [indices, lowlinks]
      exact grown.entries other known
    · rw [index]
      exact grown.index
    · rw [indices]
      exact nodeIn
    · rw [lowlinks]
      exact present
    · cases member
  · have inner : current.lowlinks[node]? ≠ current.indices[node]? := by
      rw [present, own]
      exact fun same => root (Option.some.inj same)
    obtain ⟨lower, member, -, leads⟩ := link.reaches (Nat.lt_of_le_of_ne link.le root)
    obtain ⟨same, left⟩ := tracked.leave_inner shape inner explored member leads
    rw [same]
    refine ⟨left, grown, nodeIn, found ++ [node], low, by simp [shape], present, link.le, link.reaches, ?_⟩
    intro other newer next onStack edge
    rcases List.mem_append.1 newer with earlier | last
    · exact link.bound other earlier next onStack edge
    · obtain rfl := List.mem_singleton.1 last
      exact (visited next (all next edge)).2 onStack

theorem strongConnect_connects (closed : graph.Closed) (fuel : Nat) (inGraph : node ∈ graph.nodes) (fresh : node ∉ state.indices)
    (enough : (unvisited graph state).length ≤ fuel) (tracked : Tracked graph state path)
    (leads : ∀ caller ∈ path, Relation.ReflTransGen graph.Edge caller node) :
    ∃ next, strongConnect graph fuel node state = .ok next ∧ Connects graph state node path next := by
  induction fuel generalizing node state path with
  | zero =>
    have listed : node ∈ unvisited graph state := List.mem_filter.2 ⟨Std.ExtTreeMap.mem_keys.2 inGraph, by simpa using fresh⟩
    have positive := List.length_pos_of_mem listed
    omega
  | succ fuel ih =>
    obtain ⟨after, run, exploring⟩ :
        ∃ after, (successors graph node).foldlM (visitSuccessor (strongConnect graph fuel) node) (state.enter node) = .ok after ∧
          Exploring graph state node path (successors graph node) after := by
      refine foldlM_progress (fun done current => Exploring graph state node path done current) (Exploring.start tracked fresh leads) ?_
      intro done successor rest current split exploring
      have edge : graph.Edge node successor := mem_successors.1 (by simp [split])
      refine exploring.visit edge fresh tracked.searching.entered fun unseen => ?_
      have nodeIn : node ∈ current.indices := mem_iff_lookup.2 ⟨state.index, exploring.own⟩
      have fewer := unvisited_lt exploring.grown inGraph fresh nodeIn
      refine ih (closed.ends edge).2 unseen (by omega) exploring.tracked fun caller member => ?_
      rcases List.mem_cons.1 member with rfl | outer
      · exact .single edge
      · exact (leads caller outer).tail edge
    exact ⟨after.leave graph node, bind_eq_ok.2 ⟨after, run, rfl⟩, exploring.finish fun next edge => mem_successors.2 edge⟩

end

section

variable {graph : GovernanceGraph}

theorem tracked_initial (graph : GovernanceGraph) : Tracked graph .initial [] := by
  have untouched : ∀ node, node ∉ TarjanState.initial.indices := by simp [TarjanState.initial]
  refine ⟨searching_start untouched, by simp [TarjanState.initial], by simp [TarjanState.initial], fun component => ?_, List.nodup_nil⟩
  simp only [TarjanState.initial, List.not_mem_nil, false_iff, not_and]
  intro report unseen
  obtain ⟨node, member, -⟩ := report.cycle.transGen
  exact untouched node (unseen node member).1

section

variable (closed : graph.Closed)

include closed

theorem edge_bounded (node next : NodeId) (edge : graph.Edge node next) :
    node ∈ graph.nodes.keys ∧ next ∈ graph.nodes.keys :=
  ⟨Std.ExtTreeMap.mem_keys.2 (closed.ends edge).1, Std.ExtTreeMap.mem_keys.2 (closed.ends edge).2⟩

theorem IsReport.inGraph {component : List NodeId} (report : IsReport graph component) {node : NodeId}
    (member : node ∈ component) : node ∈ graph.nodes := by
  obtain ⟨root, rootIn, round⟩ := report.cycle.transGen
  rcases Relation.ReflTransGen.cases_tail ((report.cycle.mem_iff rootIn).1 member).1 with same | ⟨previous, -, edge⟩
  · obtain ⟨next, edge, -⟩ := Relation.TransGen.head'_iff.1 round
    exact same ▸ (closed.ends edge).1
  · exact (closed.ends edge).2

theorem isReport_iff {component : List NodeId} : IsReport graph component ↔
    (component.Pairwise fun left right => compare left right = .lt) ∧
      ∃ node ∈ graph.nodes, (∀ other, other ∈ component ↔ Connected graph.Edge node other) ∧
        (1 < component.length ∨ graph.Edge node node) := by
  constructor
  · intro report
    obtain ⟨node, member, -⟩ := report.cycle.transGen
    have members (other : NodeId) : other ∈ component ↔ Connected graph.Edge node other := report.cycle.mem_iff member
    exact ⟨report.ascending, node, report.inGraph closed member, members, (isCycle_iff report.cycle.nodup members).1 report.cycle⟩
  · rintro ⟨ascending, node, -, members, returns⟩
    exact ⟨ascending, (isCycle_iff (nodup_of_ascending ascending) members).2 returns⟩

/-- The search reports every component through which a cycle runs, and nothing else, in ascending order. -/
theorem detectCycles_reports : ∃ cycles, detectCycles graph = .ok cycles ∧
    (∀ component, component ∈ cycles ↔ IsReport graph component) ∧ cycles.Nodup ∧
    cycles.Pairwise fun left right => (compare left right).isLE := by
  obtain ⟨final, run, tracked, visited⟩ : ∃ final, (sorted graph.nodes.keys).foldlM (visitRoot graph) TarjanState.initial = .ok final ∧
      Tracked graph final [] ∧ ∀ node ∈ sorted graph.nodes.keys, node ∈ final.indices := by
    refine foldlM_progress (fun done current => Tracked graph current [] ∧ ∀ node ∈ done, node ∈ current.indices)
      ⟨tracked_initial graph, by simp⟩ ?_
    rintro done node rest current split ⟨tracked, visited⟩
    unfold visitRoot
    by_cases seen : node ∈ current.indices
    · refine ⟨current, by simp [seen], tracked, fun other member => ?_⟩
      rcases List.mem_append.1 member with earlier | last
      · exact visited other earlier
      · exact List.mem_singleton.1 last ▸ seen
    · have inGraph : node ∈ graph.nodes := Std.ExtTreeMap.mem_keys.1 (mem_sorted.1 (by simp [split]))
      have few : (unvisited graph current).length ≤ graph.nodes.size := by
        rw [← Std.ExtTreeMap.length_keys]
        exact List.length_filter_le _ _
      obtain ⟨next, call, connects⟩ := strongConnect_connects closed (graph.nodes.size + graph.edges.length) inGraph seen (by omega)
        tracked (by simp)
      refine ⟨next, by simpa [seen] using call, connects.tracked, fun other member => ?_⟩
      rcases List.mem_append.1 member with earlier | last
      · exact connects.grown.mem (visited other earlier)
      · exact List.mem_singleton.1 last ▸ connects.entered
  refine ⟨sorted final.cycles, bind_eq_ok.2 ⟨final, run, rfl⟩, fun component => ?_, (sorted_perm _).nodup_iff.2 tracked.once,
    sorted_ascends _⟩
  rw [mem_sorted, tracked.reported component]
  refine and_iff_left_of_imp fun report node member => ?_
  refine ⟨visited node (mem_sorted.2 (Std.ExtTreeMap.mem_keys.2 (report.inGraph closed member))), ?_⟩
  rw [tracked.searching.stack_nil]
  exact List.not_mem_nil

theorem exists_report {node : NodeId} (path : Relation.TransGen graph.Edge node node) :
    ∃ component, IsReport graph component ∧ node ∈ component := by
  obtain ⟨component, cycle, member⟩ := exists_cycle (edge_bounded closed) path
  exact ⟨sorted component, ⟨sorted_ascends_strictly cycle.nodup, cycle.perm (sorted_perm component)⟩, mem_sorted.2 member⟩

theorem detectCycles_eq_nil : detectCycles graph = .ok [] ↔ graph.Acyclic := by
  obtain ⟨cycles, run, reports, -⟩ := detectCycles_reports closed
  rw [run, Except.ok.injEq]
  constructor
  · rintro rfl node path
    obtain ⟨component, report, -⟩ := exists_report closed path
    exact absurd ((reports component).2 report) List.not_mem_nil
  · intro acyclic
    refine List.eq_nil_iff_forall_not_mem.2 fun component member => ?_
    obtain ⟨node, -, round⟩ := ((reports component).1 member).cycle.transGen
    exact acyclic node round

theorem detectCycles_acyclic (acyclic : graph.Acyclic) : detectCycles graph = .ok [] :=
  (detectCycles_eq_nil closed).2 acyclic

theorem topologicalOrder_complete : graph.Acyclic ↔
    ∃ order, topologicalOrder graph (incomingCounts graph) = .ok order ∧ ∀ node ∈ graph.nodes, node ∈ order := by
  constructor
  · intro acyclic
    obtain ⟨order, run, legal⟩ := topologicalOrder_legal closed acyclic
    exact ⟨order, run, fun node member => (legal.complete node).2 member⟩
  · rintro ⟨order, run, complete⟩
    exact (legal_of_topologicalOrder_complete closed run complete).acyclic fun _ _ edge => (closed.ends edge).2

end

/-- The cycles of a valid graph: every strongly connected component with several nodes or an edge to itself, listed once. -/
theorem detectCycles_exact {regexes : RegexEngine} (valid : validateGovernanceGraph regexes graph = .ok ()) :
    ∃ cycles, detectCycles graph = .ok cycles ∧
      (∀ component, component ∈ cycles ↔ (component.Pairwise fun left right => compare left right = .lt) ∧
        ∃ node ∈ graph.nodes, (∀ other, other ∈ component ↔ Connected graph.Edge node other) ∧
          (1 < component.length ∨ graph.Edge node node)) ∧
      cycles.Nodup ∧ (cycles.Pairwise fun left right => (compare left right).isLE) ∧
      (∀ first ∈ cycles, ∀ second ∈ cycles, first ≠ second → ∀ node, ¬(node ∈ first ∧ node ∈ second)) ∧
      (cycles = [] ↔ ∃ order, topologicalOrder graph (incomingCounts graph) = .ok order ∧ ∀ node ∈ graph.nodes, node ∈ order) := by
  have closed := closed_of_valid valid
  obtain ⟨cycles, run, reports, once, ascending⟩ := detectCycles_reports closed
  refine ⟨cycles, run, fun component => (reports component).trans (isReport_iff closed), once, ascending, ?_, ?_⟩
  · rintro first firstIn second secondIn different node ⟨inFirst, inSecond⟩
    have firstReport := (reports first).1 firstIn
    have secondReport := (reports second).1 secondIn
    refine different (eq_of_ascending firstReport.ascending secondReport.ascending fun other => ?_)
    rw [firstReport.cycle.mem_iff inFirst, secondReport.cycle.mem_iff inSecond]
  · rw [← topologicalOrder_complete closed, ← detectCycles_eq_nil closed, run, Except.ok.injEq]

end

theorem entry_named : isBlank "entry" = false := by decide

theorem left_named : isBlank "left" = false := by decide

theorem right_named : isBlank "right" = false := by decide

/-- A loop of two nodes behind an entry, and a node with an edge to itself. -/
def loopedGraph : GovernanceGraph where
  nodes := Std.ExtTreeMap.ofList [
    (⟨"entry", entry_named⟩, .binary ⟨"entry", entry_named⟩ "entry" [] .permit .firstMatch),
    (⟨"left", left_named⟩, .binary ⟨"left", left_named⟩ "left" [] .deny .firstMatch),
    (⟨"right", right_named⟩, .threshold ⟨"right", right_named⟩ "right" 0.5 "strength"),
    (⟨"self", by decide⟩, .binary ⟨"self", by decide⟩ "self" [] .escalate .firstMatch)] compare
  edges := [⟨⟨"entry", entry_named⟩, ⟨"right", right_named⟩, .passThrough⟩, ⟨⟨"right", right_named⟩, ⟨"left", left_named⟩, .passThrough⟩,
    ⟨⟨"left", left_named⟩, ⟨"right", right_named⟩, .claimModification 0.25⟩, ⟨⟨"self", by decide⟩, ⟨"self", by decide⟩, .passThrough⟩]

theorem detectCycles_exact_looped :
    detectCycles loopedGraph = .ok [[⟨"left", by decide⟩, ⟨"right", by decide⟩], [⟨"self", by decide⟩]] ∧
    ¬∃ order, topologicalOrder loopedGraph (incomingCounts loopedGraph) = .ok order ∧ ∀ node ∈ loopedGraph.nodes, node ∈ order := by
  have run : detectCycles loopedGraph = .ok [[⟨"left", by decide⟩, ⟨"right", by decide⟩], [⟨"self", by decide⟩]] := by decide +kernel
  obtain ⟨cycles, found, -, -, -, -, complete⟩ := @detectCycles_exact loopedGraph .error (by decide +kernel)
  obtain rfl := Except.ok.inj (run.symm.trans found)
  exact ⟨run, fun ordered => absurd (complete.2 ordered) (by simp)⟩

end Legitimacy
