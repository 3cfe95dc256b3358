import Mathlib.Data.List.Dedup
import Mathlib.Data.List.Sort
import Mathlib.Logic.Relation

namespace StrongComponents

variable {V : Type} {edge : V → V → Prop}

/-- Each of the two nodes leads to the other. -/
def Connected (edge : V → V → Prop) (node other : V) : Prop :=
  Relation.ReflTransGen edge node other ∧ Relation.ReflTransGen edge other node

theorem Connected.refl (node : V) : Connected edge node node := ⟨.refl, .refl⟩

theorem Connected.symm {node other : V} (connected : Connected edge node other) : Connected edge other node :=
  ⟨connected.2, connected.1⟩

theorem Connected.trans {first second third : V} (left : Connected edge first second) (right : Connected edge second third) :
    Connected edge first third := ⟨left.1.trans right.1, right.2.trans left.2⟩

/-- The nodes of a strongly connected component through which a cycle runs, each listed once. -/
structure IsCycle (edge : V → V → Prop) (component : List V) : Prop where
  nodup : component.Nodup
  whole : ∃ node, ∀ other, other ∈ component ↔ Connected edge node other
  returns : 1 < component.length ∨ ∃ node ∈ component, edge node node

theorem IsCycle.mem_iff {component : List V} (cycle : IsCycle edge component) {node other : V} (member : node ∈ component) :
    other ∈ component ↔ Connected edge node other := by
  obtain ⟨root, whole⟩ := cycle.whole
  have fromRoot := (whole node).1 member
  rw [whole other]
  exact ⟨fromRoot.symm.trans, fromRoot.trans⟩

theorem IsCycle.perm {component order : List V} (cycle : IsCycle edge component) (perm : order.Perm component) :
    IsCycle edge order := by
  obtain ⟨root, whole⟩ := cycle.whole
  refine ⟨perm.nodup_iff.2 cycle.nodup, ⟨root, fun other => perm.mem_iff.trans (whole other)⟩, ?_⟩
  rcases cycle.returns with several | ⟨node, member, loop⟩
  · exact Or.inl (perm.length_eq ▸ several)
  · exact Or.inr ⟨node, perm.mem_iff.2 member, loop⟩

theorem one_lt_length {component : List V} {first second : V} (firstIn : first ∈ component) (secondIn : second ∈ component)
    (different : first ≠ second) : 1 < component.length := by
  have pair : [first, second].Subperm component := by
    refine List.subperm_of_subset (by simp [different]) fun other member => ?_
    rcases List.mem_pair.1 member with rfl | rfl
    · exact firstIn
    · exact secondIn
  exact pair.length_le

theorem isCycle_iff {component : List V} {node : V} (nodup : component.Nodup)
    (members : ∀ other, other ∈ component ↔ Connected edge node other) : IsCycle edge component ↔ 1 < component.length ∨ edge node node := by
  have own : node ∈ component := (members node).2 (Connected.refl node)
  constructor
  · intro cycle
    rcases cycle.returns with several | ⟨other, member, loop⟩
    · exact Or.inl several
    · by_cases same : other = node
      · exact Or.inr (same ▸ loop)
      · exact Or.inl (one_lt_length member own same)
  · intro returns
    exact ⟨nodup, ⟨node, members⟩, returns.imp id fun loop => ⟨node, own, loop⟩⟩

theorem transGen_of_connected {node other : V} (connected : Connected edge node other) (different : other ≠ node) :
    Relation.TransGen edge node node := by
  rcases Relation.reflTransGen_iff_eq_or_transGen.1 connected.1 with same | path
  · exact absurd same different
  · exact path.trans_left connected.2

theorem IsCycle.transGen {component : List V} (cycle : IsCycle edge component) : ∃ node ∈ component, Relation.TransGen edge node node := by
  rcases cycle.returns with several | ⟨node, member, loop⟩
  · match component, cycle, several with
    | node :: other :: rest, cycle, _ =>
      have different : other ≠ node := by
        have distinct := (List.nodup_cons.1 cycle.nodup).1
        rintro rfl
        exact distinct List.mem_cons_self
      have connected := (cycle.mem_iff List.mem_cons_self).1 (List.mem_cons_of_mem node (List.mem_cons_self (a := other) (l := rest)))
      exact ⟨node, List.mem_cons_self, transGen_of_connected connected different⟩
  · exact ⟨node, member, .single loop⟩

theorem IsCycle.backward_edge [DecidableEq V] {component : List V} (cycle : IsCycle edge component) :
    ∃ node ∈ component, ∃ next ∈ component, edge node next ∧ component.idxOf next ≤ component.idxOf node := by
  obtain ⟨root, member, round⟩ := cycle.transGen
  by_contra forwards
  push Not at forwards
  have inside : ∀ {next}, Relation.TransGen edge root next → Relation.ReflTransGen edge next root → next ∈ component :=
    fun away back => (cycle.mem_iff member).2 ⟨away.to_reflTransGen, back⟩
  -- along a path that returns to the root the position grows
  have climbs : ∀ {next}, Relation.TransGen edge root next → Relation.ReflTransGen edge next root →
      component.idxOf root < component.idxOf next := by
    intro next away
    induction away with
    | single link => exact fun back => forwards root member _ (inside (.single link) back) link
    | tail path link ih =>
      intro back
      have before := ih (back.head link)
      exact before.trans (forwards _ (inside path (back.head link)) _ (inside (path.tail link) back) link)
  exact Nat.lt_irrefl _ (climbs round .refl)

theorem exists_cycle {nodes : List V} (bounded : ∀ node next, edge node next → node ∈ nodes ∧ next ∈ nodes) {node : V}
    (path : Relation.TransGen edge node node) : ∃ component, IsCycle edge component ∧ node ∈ component := by
  classical
  have nodeIn : node ∈ nodes := by
    obtain ⟨next, link, -⟩ := Relation.TransGen.head'_iff.1 path
    exact (bounded node next link).1
  let component := nodes.dedup.filter fun other => Connected edge node other
  have members : ∀ other, other ∈ component ↔ Connected edge node other := by
    intro other
    simp only [component, List.mem_filter, List.mem_dedup, decide_eq_true_eq]
    refine and_iff_right_of_imp fun connected => ?_
    rcases Relation.ReflTransGen.cases_tail connected.1 with same | ⟨previous, -, link⟩
    · exact same ▸ nodeIn
    · exact (bounded previous other link).2
  refine ⟨component, (isCycle_iff ((List.nodup_dedup nodes).filter _) members).2 ?_, (members node).2 (Connected.refl node)⟩
  by_cases loop : edge node node
  · exact Or.inr loop
  · obtain ⟨next, link, back⟩ := Relation.TransGen.head'_iff.1 path
    have different : node ≠ next := fun same => loop (same ▸ link)
    exact Or.inl (one_lt_length ((members node).2 (Connected.refl node)) ((members next).2 ⟨.single link, back⟩) different)

/-- A depth-first search under way. `path` holds the open calls, the innermost first; `stack` holds the nodes whose component
is not closed yet, the last entered first; the rank of a node tells when it was entered. -/
structure Searching (edge : V → V → Prop) (visited : V → Prop) (rank : V → Nat) (stack path : List V) : Prop where
  entered : ∀ node ∈ stack, visited node
  ordered : stack.Pairwise fun later earlier => rank earlier < rank later
  nested : path.Pairwise fun later earlier => rank earlier < rank later
  onStack : ∀ caller ∈ path, caller ∈ stack
  explored : ∀ node next, visited node → node ∉ path → edge node next → visited next
  settled : ∀ node next, visited node → node ∉ stack → edge node next → visited next ∧ next ∉ stack
  below : ∀ node ∈ stack, ∃ caller ∈ path, rank caller ≤ rank node ∧ Relation.ReflTransGen edge node caller
  above : ∀ caller ∈ path, ∀ node ∈ stack, rank caller ≤ rank node → Relation.ReflTransGen edge caller node

variable {visited later : V → Prop} {rank newRank : V → Nat} {found stack path : List V} {node : V}

theorem searching_start (untouched : ∀ node, ¬visited node) : Searching edge visited rank [] [] := by
  constructor <;> simp [untouched]

theorem Searching.enter (search : Searching edge visited rank stack path) (fresh : ¬visited node)
    (leads : ∀ caller ∈ path, Relation.ReflTransGen edge caller node) (visits : ∀ other, later other ↔ other = node ∨ visited other)
    (same : ∀ other, visited other → newRank other = rank other) (last : ∀ other, visited other → rank other < newRank node) :
    Searching edge later newRank (node :: stack) (node :: path) := by
  have known : ∀ other ∈ path, visited other := fun other member => search.entered other (search.onStack other member)
  refine ⟨?_, ?_, ?_, ?_, ?_, ?_, ?_, ?_⟩
  · intro other member
    rcases List.mem_cons.1 member with rfl | earlier
    · exact (visits other).2 (Or.inl rfl)
    · exact (visits other).2 (Or.inr (search.entered other earlier))
  · refine List.pairwise_cons.2 ⟨fun other member => ?_, ?_⟩
    · rw [same other (search.entered other member)]
      exact last other (search.entered other member)
    · refine search.ordered.imp_of_mem fun leftIn rightIn less => ?_
      rwa [same _ (search.entered _ leftIn), same _ (search.entered _ rightIn)]
  · refine List.pairwise_cons.2 ⟨fun other member => ?_, ?_⟩
    · rw [same other (known other member)]
      exact last other (known other member)
    · refine search.nested.imp_of_mem fun leftIn rightIn less => ?_
      rwa [same _ (known _ leftIn), same _ (known _ rightIn)]
  · intro caller member
    rcases List.mem_cons.1 member with rfl | earlier
    · exact List.mem_cons_self
    · exact List.mem_cons_of_mem node (search.onStack caller earlier)
  · intro other next seen outside link
    have different : other ≠ node := fun equal => outside (equal ▸ List.mem_cons_self)
    have before := ((visits other).1 seen).resolve_left different
    exact (visits next).2 (Or.inr (search.explored other next before (fun member => outside (List.mem_cons_of_mem node member)) link))
  · intro other next seen outside link
    have different : other ≠ node := fun equal => outside (equal ▸ List.mem_cons_self)
    have before := ((visits other).1 seen).resolve_left different
    obtain ⟨nextSeen, off⟩ := search.settled other next before (fun member => outside (List.mem_cons_of_mem node member)) link
    refine ⟨(visits next).2 (Or.inr nextSeen), fun member => ?_⟩
    rcases List.mem_cons.1 member with rfl | earlier
    · exact fresh nextSeen
    · exact off earlier
  · intro other member
    rcases List.mem_cons.1 member with rfl | earlier
    · exact ⟨other, List.mem_cons_self, le_rfl, .refl⟩
    · obtain ⟨caller, open_, less, back⟩ := search.below other earlier
      refine ⟨caller, List.mem_cons_of_mem node open_, ?_, back⟩
      rwa [same caller (known caller open_), same other (search.entered other earlier)]
  · intro caller open_ other member less
    rcases List.mem_cons.1 open_ with rfl | outer
    · rcases List.mem_cons.1 member with rfl | earlier
      · exact .refl
      · have before := last other (search.entered other earlier)
        rw [same other (search.entered other earlier)] at less
        omega
    · rcases List.mem_cons.1 member with rfl | earlier
      · exact leads caller outer
      · rw [same caller (known caller outer), same other (search.entered other earlier)] at less
        exact search.above caller outer other earlier less

theorem Searching.sides (search : Searching edge visited rank (found ++ node :: stack) path) :
    (∀ other ∈ found, rank node < rank other) ∧ ∀ other ∈ stack, rank other < rank node := by
  obtain ⟨-, beneath, between⟩ := List.pairwise_append.1 search.ordered
  exact ⟨fun other member => between other member node List.mem_cons_self, (List.pairwise_cons.1 beneath).1⟩

theorem Searching.notMem_stack (search : Searching edge visited rank (found ++ node :: stack) path) {other : V}
    (listed : other = node ∨ other ∈ found) : other ∉ stack := by
  intro beneath
  have less := search.sides.2 other beneath
  rcases listed with rfl | member
  · exact Nat.lt_irrefl _ less
  · have more := search.sides.1 other member
    omega

theorem Searching.taken (search : Searching edge visited rank (found ++ node :: stack) path) :
    (found ++ [node]).Nodup ∧ ∀ other ∈ found ++ [node], visited other ∧ other ∉ stack := by
  have distinct : (found ++ node :: stack).Nodup := search.ordered.imp fun less same => by rw [same] at less; omega
  refine ⟨distinct.sublist (by simp), fun other member => ?_⟩
  have upper : other = node ∨ other ∈ found := by simpa [or_comm] using member
  refine ⟨search.entered other ?_, search.notMem_stack upper⟩
  rcases upper with rfl | newer
  · exact List.mem_append_right found List.mem_cons_self
  · exact List.mem_append_left _ newer

theorem Searching.caller_beneath (search : Searching edge visited rank (found ++ node :: stack) (node :: path)) {caller : V}
    (member : caller ∈ path) : caller ∈ stack := by
  have less := (List.pairwise_cons.1 search.nested).1 caller member
  rcases List.mem_append.1 (search.onStack caller (List.mem_cons_of_mem node member)) with newer | older
  · have more := search.sides.1 caller newer
    omega
  · rcases List.mem_cons.1 older with same | beneath
    · subst same
      exact absurd less (Nat.lt_irrefl _)
    · exact beneath

section

variable (search : Searching edge visited rank (found ++ node :: stack) (node :: path)) (done : ∀ next, edge node next → visited next)

include search done

theorem Searching.explored_all {other next : V} (seen : visited other) (outside : other ∉ path) (link : edge other next) :
    visited next := by
  by_cases same : other = node
  · exact done next (same ▸ link)
  · refine search.explored other next seen ?_ link
    simpa using ⟨same, outside⟩

variable (apart : ∀ other, other = node ∨ other ∈ found → ∀ next ∈ stack, ¬edge other next)

include apart

theorem Searching.leads_inside {start other : V} (inside : visited start ∧ start ∉ stack) (leads : Relation.ReflTransGen edge start other) :
    visited other ∧ other ∉ stack := by
  induction leads with
  | refl => exact inside
  | @tail current next _ link ih =>
    by_cases onStack : current ∈ found ++ node :: stack
    · have upper : current = node ∨ current ∈ found := by
        rcases List.mem_append.1 onStack with newer | older
        · exact Or.inr newer
        · exact Or.inl ((List.mem_cons.1 older).resolve_right ih.2)
      have notCaller : current ∉ path := fun member => ih.2 (search.caller_beneath member)
      exact ⟨search.explored_all done ih.1 notCaller link, fun member => apart current upper next member link⟩
    · obtain ⟨seen, off⟩ := search.settled current next ih.1 onStack link
      exact ⟨seen, fun member => off (List.mem_append_right found (List.mem_cons_of_mem node member))⟩

/-- The nodes down to an open call from which nothing leads further down are its component. -/
theorem Searching.component (other : V) : other ∈ found ++ [node] ↔ Connected edge node other := by
  have nodeOn : node ∈ found ++ node :: stack := List.mem_append_right found List.mem_cons_self
  have nodeInside : visited node ∧ node ∉ stack := ⟨search.entered node nodeOn, search.notMem_stack (Or.inl rfl)⟩
  constructor
  · intro member
    rcases List.mem_append.1 member with newer | last
    · have otherOn : other ∈ found ++ node :: stack := List.mem_append_left _ newer
      obtain ⟨caller, open_, less, back⟩ := search.below other otherOn
      have callerInside := search.leads_inside done apart ⟨search.entered other otherOn, search.notMem_stack (Or.inr newer)⟩ back
      have isNode : caller = node := by
        rcases List.mem_cons.1 open_ with same | outer
        · exact same
        · exact absurd (search.caller_beneath outer) callerInside.2
      subst isNode
      exact ⟨search.above caller List.mem_cons_self other otherOn (search.sides.1 other newer).le, back⟩
    · obtain rfl := List.mem_singleton.1 last
      exact Connected.refl other
  · intro connected
    obtain ⟨seen, off⟩ := search.leads_inside done apart nodeInside connected.1
    by_contra outside
    have offStack : other ∉ found ++ node :: stack := by
      simp only [List.mem_append, List.mem_cons, List.not_mem_nil, or_false, not_or] at outside ⊢
      exact ⟨outside.1, outside.2, off⟩
    -- what is off the stack leads nowhere on it
    have stays : ∀ {last}, Relation.ReflTransGen edge other last → visited last ∧ last ∉ found ++ node :: stack := by
      intro last leads
      induction leads with
      | refl => exact ⟨seen, offStack⟩
      | tail _ link ih => exact search.settled _ _ ih.1 ih.2 link
    exact (stays connected.2).2 nodeOn

theorem Searching.close : Searching edge visited rank stack path := by
  have beneath : ∀ other ∈ stack, other ∈ found ++ node :: stack := fun other member =>
    List.mem_append_right found (List.mem_cons_of_mem node member)
  refine ⟨fun other member => search.entered other (beneath other member), ?_, (List.pairwise_cons.1 search.nested).2,
    fun caller member => search.caller_beneath member, fun other next seen outside link => search.explored_all done seen outside link,
    fun other next seen off link => search.leads_inside done apart ⟨seen, off⟩ (.single link), ?_, ?_⟩
  · exact (List.pairwise_cons.1 (List.pairwise_append.1 search.ordered).2.1).2
  · intro other member
    obtain ⟨caller, open_, less, back⟩ := search.below other (beneath other member)
    have lower := search.sides.2 other member
    rcases List.mem_cons.1 open_ with same | outer
    · subst same
      omega
    · exact ⟨caller, outer, less, back⟩
  · exact fun caller member other otherIn => search.above caller (List.mem_cons_of_mem node member) other (beneath other otherIn)

omit apart in
theorem Searching.retreat {lower : V} (member : lower ∈ stack) (leads : Relation.ReflTransGen edge node lower) :
    Searching edge visited rank (found ++ node :: stack) path := by
  refine ⟨search.entered, search.ordered, (List.pairwise_cons.1 search.nested).2,
    fun caller outer => search.onStack caller (List.mem_cons_of_mem node outer),
    fun other next seen outside link => search.explored_all done seen outside link, search.settled, ?_,
    fun caller outer => search.above caller (List.mem_cons_of_mem node outer)⟩
  intro other otherOn
  obtain ⟨caller, open_, less, back⟩ := search.below other otherOn
  rcases List.mem_cons.1 open_ with same | outer
  · subst same
    obtain ⟨further, openFurther, lessFurther, backFurther⟩ :=
      search.below lower (List.mem_append_right found (List.mem_cons_of_mem caller member))
    have before := search.sides.2 lower member
    rcases List.mem_cons.1 openFurther with same | outer
    · subst same
      omega
    · exact ⟨further, outer, by omega, back.trans (leads.trans backFurther)⟩
  · exact ⟨caller, outer, less, back⟩

end

theorem Searching.stack_nil (search : Searching edge visited rank stack []) : stack = [] := by
  refine List.eq_nil_iff_forall_not_mem.2 fun node member => ?_
  obtain ⟨caller, open_, -⟩ := search.below node member
  cases open_

end StrongComponents
