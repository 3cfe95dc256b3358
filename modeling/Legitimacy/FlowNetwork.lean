import Mathlib.Data.Finset.Card
import Mathlib.Logic.Relation
import Mathlib.Order.WellFounded

/-- Items enter at the entry nodes and travel along the edges; each node holds some of what arrives and passes the rest on. -/
structure FlowNetwork (V A : Type) where
  edge : V → V → Prop
  entry : V → Prop
  input : Set A
  forward : V → Set A → Set A
  forward_subset : ∀ node arrived, forward node arrived ⊆ arrived

namespace FlowNetwork

variable {V A : Type}

def pending (network : FlowNetwork V A) (flow : V → Set A) (done : V → Prop) (node : V) : Set A :=
  {item | (network.entry node ∧ item ∈ network.input) ∨
    ∃ previous, done previous ∧ network.edge previous node ∧ item ∈ network.forward previous (flow previous)}

/-- A flow assigns to every node exactly what its predecessors forward to it, and the input to the entries. -/
def IsFlow (network : FlowNetwork V A) (flow : V → Set A) : Prop :=
  ∀ node, flow node = network.pending flow (fun _ => True) node

theorem exists_flow (network : FlowNetwork V A) (wf : WellFounded network.edge) : ∃ flow, network.IsFlow flow := by
  let flow : V → Set A := wf.fix fun node before =>
    {item | (network.entry node ∧ item ∈ network.input) ∨
      ∃ previous, ∃ link : network.edge previous node, item ∈ network.forward previous (before previous link)}
  refine ⟨flow, fun node => ?_⟩
  have unfolded := wf.fix_eq (fun node before =>
    {item | (network.entry node ∧ item ∈ network.input) ∨
      ∃ previous, ∃ link : network.edge previous node, item ∈ network.forward previous (before previous link)}) node
  refine unfolded.trans ?_
  ext item
  simp only [pending, Set.mem_ofPred_eq, true_and, exists_prop, flow]

variable {network : FlowNetwork V A}

theorem IsFlow.unique (wf : WellFounded network.edge) {first second : V → Set A}
    (isFirst : network.IsFlow first) (isSecond : network.IsFlow second) : first = second := by
  funext node
  induction node using wf.induction with
  | _ node ih =>
    rw [isFirst node, isSecond node]
    ext item
    constructor
    · rintro (entered | ⟨previous, _, link, passed⟩)
      · exact Or.inl entered
      · exact Or.inr ⟨previous, trivial, link, ih previous link ▸ passed⟩
    · rintro (entered | ⟨previous, _, link, passed⟩)
      · exact Or.inl entered
      · exact Or.inr ⟨previous, trivial, link, ih previous link ▸ passed⟩

theorem IsFlow.subset_input (wf : WellFounded network.edge) {flow : V → Set A}
    (isFlow : network.IsFlow flow) (node : V) : flow node ⊆ network.input := by
  induction node using wf.induction with
  | _ node ih =>
    intro item member
    rw [isFlow node] at member
    rcases member with ⟨_, supplied⟩ | ⟨previous, _, link, passed⟩
    · exact supplied
    · exact ih previous link (network.forward_subset previous _ passed)

theorem IsFlow.restrict {part : FlowNetwork V A} {flow : V → Set A} (isFlow : network.IsFlow flow)
    (sameEdge : part.edge = network.edge) (sameEntry : part.entry = network.entry) (within : part.input ⊆ network.input)
    (forward : ∀ node, part.forward node (flow node ∩ part.input) = network.forward node (flow node) ∩ part.input) :
    part.IsFlow fun node => flow node ∩ part.input := by
  intro node
  ext item
  simp only [Set.mem_inter_iff, pending, Set.mem_ofPred_eq, sameEdge, sameEntry, forward]
  rw [isFlow node]
  simp only [pending, Set.mem_ofPred_eq]
  constructor
  · rintro ⟨⟨isEntry, _⟩ | ⟨previous, _, link, passed⟩, supplied⟩
    · exact Or.inl ⟨isEntry, supplied⟩
    · exact Or.inr ⟨previous, trivial, link, passed, supplied⟩
  · rintro (⟨isEntry, supplied⟩ | ⟨previous, _, link, passed, supplied⟩)
    · exact ⟨Or.inl ⟨isEntry, within supplied⟩, supplied⟩
    · exact ⟨Or.inr ⟨previous, trivial, link, passed⟩, supplied⟩

theorem IsFlow.settles (ends : WellFounded fun next node => network.edge node next) {flow : V → Set A}
    (isFlow : network.IsFlow flow) {item : A} (node : V) (member : item ∈ flow node) :
    ∃ final, item ∈ flow final ∧ (item ∉ network.forward final (flow final) ∨ ∀ next, ¬network.edge final next) := by
  induction node using ends.induction with
  | _ node ih =>
    by_cases passed : item ∈ network.forward node (flow node)
    · by_cases leaf : ∀ next, ¬network.edge node next
      · exact ⟨node, member, Or.inr leaf⟩
      · push Not at leaf
        obtain ⟨next, link⟩ := leaf
        refine ih next link ?_
        rw [isFlow next]
        exact Or.inr ⟨node, trivial, link, passed⟩
    · exact ⟨node, member, Or.inl passed⟩

/-- An order of the nodes in which every node comes after all its predecessors. -/
structure LegalOrder (edge : V → V → Prop) (nodes : V → Prop) (order : List V) : Prop where
  nodup : order.Nodup
  complete : ∀ node, node ∈ order ↔ nodes node
  forwards : ∀ done node rest, order = done ++ node :: rest → ∀ previous, edge previous node → previous ∈ done

theorem pending_nothing (network : FlowNetwork V A) (flow : V → Set A) (node : V) :
    network.pending flow (· ∈ []) node = {item | network.entry node ∧ item ∈ network.input} := by
  simp [pending]

theorem LegalOrder.pending_eq {nodes : V → Prop} {order : List V} (legal : LegalOrder network.edge nodes order)
    {flow : V → Set A} (isFlow : network.IsFlow flow) {done : List V} {node : V} {rest : List V} (split : order = done ++ node :: rest) :
    network.pending flow (· ∈ done) node = flow node := by
  rw [isFlow node]
  ext item
  constructor
  · rintro (entered | ⟨previous, _, link, passed⟩)
    · exact Or.inl entered
    · exact Or.inr ⟨previous, trivial, link, passed⟩
  · rintro (entered | ⟨previous, _, link, passed⟩)
    · exact Or.inl entered
    · exact Or.inr ⟨previous, legal.forwards done node rest split previous link, link, passed⟩

theorem LegalOrder.not_visited {edge : V → V → Prop} {nodes : V → Prop} {order : List V} (legal : LegalOrder edge nodes order)
    {done : List V} {node next : V} {rest : List V} (split : order = done ++ node :: rest) (link : edge node next) :
    next ∉ done ++ [node] := by
  have distinct := legal.nodup
  rw [split, List.nodup_append] at distinct
  have fresh : node ∉ done := fun member => distinct.2.2 node member node List.mem_cons_self rfl
  intro visited
  rcases List.mem_append.1 visited with earlier | last
  · obtain ⟨front, back, whole⟩ := List.append_of_mem earlier
    have before := legal.forwards front next (back ++ node :: rest) (by simp [split, whole]) node link
    exact fresh (by simp [whole, before])
  · obtain rfl : next = node := by simpa using last
    exact fresh (legal.forwards done next rest split next link)

theorem pending_subset {flow : V → Set A} (within : ∀ node, flow node ⊆ network.input) (done : V → Prop)
    (node : V) : network.pending flow done node ⊆ network.input := by
  rintro item (⟨_, supplied⟩ | ⟨previous, _, _, passed⟩)
  · exact supplied
  · exact within previous (network.forward_subset previous _ passed)

theorem pending_append (network : FlowNetwork V A) (flow : V → Set A) (done : List V) (last node : V) :
    network.pending flow (· ∈ done ++ [last]) node =
      network.pending flow (· ∈ done) node ∪ {item | network.edge last node ∧ item ∈ network.forward last (flow last)} := by
  ext item
  simp only [pending, List.mem_append, List.mem_singleton, Set.mem_ofPred_eq, Set.mem_union]
  constructor
  · rintro (entered | ⟨previous, earlier | rfl, link, passed⟩)
    · exact Or.inl (Or.inl entered)
    · exact Or.inl (Or.inr ⟨previous, earlier, link, passed⟩)
    · exact Or.inr ⟨link, passed⟩
  · rintro ((entered | ⟨previous, earlier, link, passed⟩) | ⟨link, passed⟩)
    · exact Or.inl entered
    · exact Or.inr ⟨previous, Or.inl earlier, link, passed⟩
    · exact Or.inr ⟨last, Or.inr rfl, link, passed⟩

theorem LegalOrder.acyclic {edge : V → V → Prop} {nodes : V → Prop} {order : List V} (legal : LegalOrder edge nodes order)
    (ends : ∀ node next, edge node next → nodes next) : ∀ node, ¬Relation.TransGen edge node node := by
  classical
  have earlier : ∀ {node next}, edge node next → order.idxOf node < order.idxOf next := by
    intro node next link
    obtain ⟨done, rest, split⟩ := List.append_of_mem ((legal.complete next).2 (ends node next link))
    have before := legal.forwards done next rest split node link
    have distinct := legal.nodup
    rw [split, List.nodup_append] at distinct
    have fresh : next ∉ done := fun member => distinct.2.2 next member next List.mem_cons_self rfl
    rw [split, List.idxOf_append_of_mem before, List.idxOf_append_of_notMem fresh, List.idxOf_cons_self, Nat.add_zero]
    exact List.idxOf_lt_length_of_mem before
  have along : ∀ {node next}, Relation.TransGen edge node next → order.idxOf node < order.idxOf next := by
    intro node next path
    induction path with
    | single link => exact earlier link
    | tail _ link ih => exact ih.trans (earlier link)
  exact fun node path => Nat.lt_irrefl _ (along path)

theorem wellFounded_of_acyclic {edge : V → V → Prop} (sources : Finset V) (bounded : ∀ node next, edge node next → node ∈ sources)
    (acyclic : ∀ node, ¬Relation.TransGen edge node node) : WellFounded edge := by
  classical
  let before (node : V) : Finset V := sources.filter fun source => Relation.TransGen edge source node
  refine Subrelation.wf ?_ (InvImage.wf (fun node => (before node).card) Nat.lt_wfRel.wf)
  intro node next link
  refine Finset.card_lt_card ⟨fun source member => ?_, fun subset => ?_⟩
  · have path := (Finset.mem_filter.1 member).2
    exact Finset.mem_filter.2 ⟨(Finset.mem_filter.1 member).1, path.tail link⟩
  · have inBefore : node ∈ before next := Finset.mem_filter.2 ⟨bounded node next link, .single link⟩
    exact acyclic node (Finset.mem_filter.1 (subset inBefore)).2

end FlowNetwork
