import Legitimacy.ClaudeDir
import Legitimacy.CheckAvailability
import Legitimacy.PermissionFlow

namespace Legitimacy

namespace ClaudeDir

open ExceptRun

section

/-- An entry of a permission list, with the decision of its list and its place in it. -/
structure PermissionEntry where
  field : String
  decision : Decision
  matcher : String
  index : Nat

def permissionEntries (permissions : ClaudePermissions) : List PermissionEntry :=
  (permissionFields permissions).flatMap fun field => field.2.2.zipIdx.map fun entry => ⟨field.1, field.2.1, entry.1, entry.2⟩

def PermissionEntry.id (path : String) (entry : PermissionEntry) : NodeId := permissionId entry.field path entry.index

def PermissionEntry.node (path : String) (entry : PermissionEntry) : GovernanceNode :=
  .binary (entry.id path) s!"{entry.field} {entry.matcher}" [gateForMatcher entry.matcher entry.decision] .deny .firstMatch

def toolNode (tool : String) : GovernanceNode := .binary (toolId tool) tool [.exactMatch tool .permit] .deny .firstMatch

def addEntry (path : String) (graph : ClaudeGraph) (entry : PermissionEntry) : ClaudeGraph :=
  addPermission path entry.field entry.decision graph (entry.matcher, entry.index)

theorem parsePermissions_eq (graph : ClaudeGraph) (path : String) (permissions : ClaudePermissions) :
    parsePermissions graph path permissions = (permissionEntries permissions).foldl (addEntry path) graph := by
  unfold parsePermissions permissionEntries
  rw [List.foldl_flatMap]
  simp only [List.foldl_map]
  rfl

variable {permissions : ClaudePermissions} {path : String} {first second entry : PermissionEntry}

theorem mem_permissionEntries : entry ∈ permissionEntries permissions ↔
    ∃ field ∈ permissionFields permissions, entry.field = field.1 ∧ entry.decision = field.2.1 ∧
      field.2.2[entry.index]? = some entry.matcher := by
  unfold permissionEntries
  rw [List.mem_flatMap]
  refine exists_congr fun field => and_congr_right fun _ => ?_
  rw [List.mem_map]
  constructor
  · rintro ⟨⟨matcher, index⟩, listed, rfl⟩
    exact ⟨rfl, rfl, List.mem_zipIdx_iff_getElem?.1 listed⟩
  · rintro ⟨sameField, sameDecision, found⟩
    refine ⟨(entry.matcher, entry.index), List.mem_zipIdx_iff_getElem?.2 found, ?_⟩
    rw [← sameField, ← sameDecision]

theorem permissionField_inj {field other : String × Decision × List String} (listed : field ∈ permissionFields permissions)
    (member : other ∈ permissionFields permissions) (same : field.1 = other.1) : field = other := by
  simp only [permissionFields, List.mem_cons, List.not_mem_nil, or_false] at listed member
  rcases listed with rfl | rfl | rfl <;> rcases member with rfl | rfl | rfl <;> first | rfl | simp at same

theorem permissionId_inj {field other : String} {index place : Nat} (listed : field ∈ ["allow", "deny", "ask"])
    (member : other ∈ ["allow", "deny", "ask"])
    (same : permissionId field path index = permissionId other path place) : field = other ∧ index = place := by
  have texts := (generatedId_inj same).2
  -- the first two characters tell the lists apart
  have fields : field = other := by
    have starts := congrArg (fun text => text.toList.take 2) texts
    simp only [List.mem_cons, List.not_mem_nil, or_false] at listed member
    rcases listed with rfl | rfl | rfl <;> rcases member with rfl | rfl | rfl <;> first | rfl | simp [String.toList_append, toString] at starts
  subst fields
  exact ⟨rfl, Nat.repr_injective ((String.append_right_inj _).1 texts)⟩

theorem entryId_inj (listed : first ∈ permissionEntries permissions) (member : second ∈ permissionEntries permissions)
    (same : first.id path = second.id path) : first = second := by
  obtain ⟨field, isField, firstField, firstDecision, atFirst⟩ := mem_permissionEntries.1 listed
  obtain ⟨other, isOther, secondField, secondDecision, atSecond⟩ := mem_permissionEntries.1 member
  have names : ∀ part ∈ permissionFields permissions, part.1 ∈ ["allow", "deny", "ask"] := by
    simp [permissionFields]
  obtain ⟨fields, places⟩ := permissionId_inj (firstField ▸ names field isField) (secondField ▸ names other isOther) same
  obtain rfl := permissionField_inj isField isOther (by rw [← firstField, ← secondField, fields])
  rw [places] at atFirst
  have matchers : first.matcher = second.matcher := Option.some.inj (atFirst.symm.trans atSecond)
  cases first
  cases second
  simp_all

theorem entryId_ne_toolId (entry : PermissionEntry) (tool : String) : entry.id path ≠ toolId tool := by
  intro same
  have kinds := (generatedId_inj same).1
  cases kinds

theorem lookup_addEntry (graph : ClaudeGraph) (entry : PermissionEntry) (key : NodeId) : (addEntry path graph entry).nodes[key]? =
    ((graph.nodes[key]?).or (if key = entry.id path then some (entry.node path) else none)).or
      (if key = toolId entry.matcher then some (toolNode entry.matcher) else none) := by
  unfold addEntry addPermission
  rw [lookup_addEdge, ClaudeGraph.addToolNode, lookup_addBinaryNode, lookup_addBinaryNode]
  rfl

theorem edges_addBinaryNode (graph : ClaudeGraph) (id : NodeId) (name : String) (gates : List Gate) (default : Decision) :
    (graph.addBinaryNode id name gates default).edges = graph.edges := by
  unfold ClaudeGraph.addBinaryNode
  split_ifs <;> rfl

theorem mem_edges_addEdge {graph : ClaudeGraph} {source target : NodeId} (differ : source ≠ target) {edge : NodeId × NodeId} :
    edge ∈ (graph.addEdge source target).edges ↔ edge ∈ graph.edges ∨ edge = (source, target) := by
  unfold ClaudeGraph.addEdge
  by_cases known : (source, target) ∈ graph.edges
  · rw [if_neg fun both => both.2 known]
    constructor
    · exact Or.inl
    · rintro (earlier | rfl)
      · exact earlier
      · exact known
  · rw [if_pos ⟨differ, known⟩, List.mem_append, List.mem_singleton]

end

section

/-- A graph of permission entries: a node for each of them, which leads to the node of the first tool with its label. -/
structure HoldsEntries (path : String) (entries : List PermissionEntry) (graph : ClaudeGraph) : Prop where
  entry : ∀ entry ∈ entries, graph.nodes[entry.id path]? = some (entry.node path)
  tool : ∀ entry ∈ entries, toolId entry.matcher ∈ graph.nodes
  node : ∀ (key : NodeId) (node : GovernanceNode), graph.nodes[key]? = some node → ∃ entry ∈ entries,
    (key = entry.id path ∧ node = entry.node path) ∨ key = toolId entry.matcher ∧ node = toolNode entry.matcher
  edge : ∀ edge : NodeId × NodeId, edge ∈ graph.edges ↔ ∃ entry ∈ entries, edge = (entry.id path, toolId entry.matcher)

variable {path : String} {graph : ClaudeGraph} {entries : List PermissionEntry} {added : PermissionEntry}

theorem HoldsEntries.empty : HoldsEntries path [] .empty where
  entry := by simp
  tool := by simp
  node := by simp [ClaudeGraph.empty]
  edge := by simp [ClaudeGraph.empty]

theorem HoldsEntries.add (holds : HoldsEntries path entries graph) (unique : ∀ entry ∈ entries, added.id path = entry.id path → added = entry) :
    HoldsEntries path (entries ++ [added]) (addEntry path graph added) where
  entry := by
    refine List.forall_mem_append.2 ⟨fun entry listed => ?_, List.forall_mem_singleton.2 ?_⟩
    · rw [lookup_addEntry, holds.entry entry listed, Option.some_or, Option.some_or]
    · rw [lookup_addEntry, if_pos rfl]
      cases found : graph.nodes[added.id path]? with
      | none => rw [Option.none_or, Option.some_or]
      | some node =>
        obtain ⟨entry, listed, ⟨same, rfl⟩ | ⟨same, -⟩⟩ := holds.node _ node found
        · rw [Option.some_or, Option.some_or, unique entry listed same]
        · exact absurd same (entryId_ne_toolId added entry.matcher)
  tool := by
    have kept : ∀ key, key ∈ graph.nodes → key ∈ (addEntry path graph added).nodes := fun key known => by
      obtain ⟨node, found⟩ := mem_iff_lookup.1 known
      exact mem_iff_lookup.2 ⟨node, by rw [lookup_addEntry, found, Option.some_or, Option.some_or]⟩
    refine List.forall_mem_append.2 ⟨fun entry listed => kept _ (holds.tool entry listed), List.forall_mem_singleton.2 ?_⟩
    rw [Std.ExtTreeMap.mem_iff_isSome_getElem?, lookup_addEntry, if_pos rfl, Option.isSome_or, Option.isSome_some, Bool.or_true]
  node key node found := by
    rw [lookup_addEntry, Option.or_eq_some_iff, Option.or_eq_some_iff] at found
    rcases found with (before | ⟨-, atEntry⟩) | ⟨-, atTool⟩
    · obtain ⟨entry, listed, which⟩ := holds.node key node before
      exact ⟨entry, List.mem_append_left _ listed, which⟩
    · split_ifs at atEntry with same
      exact ⟨added, by simp, Or.inl ⟨same, (Option.some.inj atEntry).symm⟩⟩
    · split_ifs at atTool with same
      exact ⟨added, by simp, Or.inr ⟨same, (Option.some.inj atTool).symm⟩⟩
  edge edge := by
    have edges : edge ∈ (addEntry path graph added).edges ↔ edge ∈ graph.edges ∨ edge = (added.id path, toolId added.matcher) := by
      refine (mem_edges_addEdge (entryId_ne_toolId added added.matcher)).trans ?_
      rw [ClaudeGraph.addToolNode, edges_addBinaryNode, edges_addBinaryNode]
    rw [edges, holds.edge edge]
    simp only [List.mem_append, List.mem_singleton, or_and_right, exists_or, exists_eq_left]

theorem holds_parsePermissions (path : String) (permissions : ClaudePermissions) :
    HoldsEntries path (permissionEntries permissions) (parsePermissions .empty path permissions) := by
  rw [parsePermissions_eq]
  suffices general : ∀ rest done graph, permissionEntries permissions = done ++ rest → HoldsEntries path done graph →
      HoldsEntries path (permissionEntries permissions) (rest.foldl (addEntry path) graph) from general _ [] .empty rfl .empty
  intro rest
  induction rest with
  | nil =>
    intro done graph split holds
    rw [split, List.append_nil]
    exact holds
  | cons entry rest ih =>
    intro done graph split holds
    refine ih (done ++ [entry]) _ (by rw [split, List.append_assoc, List.singleton_append]) (holds.add fun other listed same => ?_)
    exact entryId_inj (by simp [split]) (split ▸ List.mem_append_left _ listed) same

end

section

/-- A matcher that names one action: neither a regular expression nor a pattern with a beginning. -/
def Literal (matcher : String) : Prop :=
  startsWith matcher "regex:" = false ∧ ('*' ∈ matcher.toList → matcher.toList.takeWhile (· ≠ '*') = [])

instance decidableLiteral (matcher : String) : Decidable (Literal matcher) :=
  inferInstanceAs (Decidable (startsWith matcher "regex:" = false ∧ ('*' ∈ matcher.toList → matcher.toList.takeWhile (· ≠ '*') = [])))

theorem gateForMatcher_literal {matcher : String} (literal : Literal matcher) (decision : Decision) :
    gateForMatcher matcher decision = .exactMatch matcher decision := by
  have noRegex : stripStart "regex:" matcher = none := by
    unfold stripStart
    rw [literal.1]
    rfl
  unfold gateForMatcher
  rw [noRegex]
  dsimp only
  exact if_neg fun both => both.2 (literal.2 both.1)

variable {regexes : RegexEngine} {path action : String} {permissions : ClaudePermissions} {graph : GovernanceGraph} {claims : List GovernanceClaim}
  {claim : GovernanceClaim} {result : TraversalResult} {flow : NodeId → Set GovernanceClaim}

theorem decision_exactMatch {node : NodeId} {name matcher : String} {decision made : Decision} {id : NodeId}
    (atNode : graph.nodes[node]? = some (.binary id name [.exactMatch matcher decision] .deny .firstMatch)) (acts : claim.action = some action)
    (decides : Decides regexes graph node (flow node) claim made) : made = if matcher = action then decision else .deny := by
  obtain ⟨governanceNode, cohort, found, -, -, evaluated⟩ := decides
  obtain rfl := Option.some.inj (atNode.symm.trans found)
  obtain ⟨hit, matched, chosen⟩ := bind_eq_ok.1 evaluated
  obtain rfl : (claim.action == some matcher) = hit := Except.ok.inj matched
  rw [acts] at chosen
  by_cases same : matcher = action
  · rw [if_pos (beq_iff_eq.2 (congrArg some same.symm))] at chosen
    rw [if_pos same]
    exact (Except.ok.inj chosen).symm
  · rw [if_neg fun equal => same (Option.some.inj (beq_iff_eq.1 equal)).symm] at chosen
    rw [if_neg same]
    exact (Except.ok.inj chosen).symm

structure IsPermissionGraph (path : String) (entries : List PermissionEntry) (graph : GovernanceGraph) : Prop where
  entry : ∀ entry ∈ entries, graph.nodes[entry.id path]? = some (entry.node path)
  node : ∀ (key : NodeId) (node : GovernanceNode), graph.nodes[key]? = some node → ∃ entry ∈ entries,
    (key = entry.id path ∧ node = entry.node path) ∨ key = toolId entry.matcher ∧ node = toolNode entry.matcher
  edge : ∀ source target, graph.Edge source target ↔ ∃ entry ∈ entries, source = entry.id path ∧ target = toolId entry.matcher

def permissionsDirectory (path : String) (permissions : ClaudePermissions) : ClaudeDirectory :=
  ⟨path, some ⟨permissions, .null⟩, none, [], []⟩

theorem isPermissionGraph_of_parsed (parsed : parseClaudeDir regexes (permissionsDirectory path permissions) = .ok graph) :
    IsPermissionGraph (permissionsDirectory path permissions).settingsPath (permissionEntries permissions) graph := by
  obtain ⟨nodes, edges, -⟩ := build_eq_ok parsed
  have holds := holds_parsePermissions (permissionsDirectory path permissions).settingsPath permissions
  refine ⟨fun entry listed => (nodes _).trans (holds.entry entry listed), fun key node found => holds.node key node ((nodes key).symm.trans found),
    ?_⟩
  intro source target
  unfold GovernanceGraph.Edge
  rw [edges]
  constructor
  · rintro ⟨_, mapped, rfl, rfl⟩
    obtain ⟨edge, listed, rfl⟩ := List.mem_map.1 mapped
    obtain ⟨entry, member, rfl⟩ := (holds.edge edge).1 listed
    exact ⟨entry, member, rfl, rfl⟩
  · rintro ⟨entry, member, rfl, rfl⟩
    exact ⟨_, List.mem_map_of_mem ((holds.edge _).2 ⟨entry, member, rfl⟩), rfl, rfl⟩

namespace IsPermissionGraph

variable {entries : List PermissionEntry}

section

variable (isGraph : IsPermissionGraph path entries graph)

include isGraph

theorem isEntry {entry : PermissionEntry} (listed : entry ∈ entries) :
    graph.IsEntry (entry.id path) := by
  refine ⟨mem_iff_lookup.2 ⟨_, isGraph.entry entry listed⟩, fun previous link => ?_⟩
  obtain ⟨other, -, -, same⟩ := (isGraph.edge _ _).1 link
  exact entryId_ne_toolId entry other.matcher same

theorem acyclic : graph.Acyclic := by
  intro node cycle
  -- an edge leaves an entry and meets a tool
  obtain ⟨next, link, -⟩ := Relation.TransGen.head'_iff.1 cycle
  obtain ⟨previous, -, back⟩ := Relation.TransGen.tail'_iff.1 cycle
  obtain ⟨entry, -, atEntry, -⟩ := (isGraph.edge _ _).1 link
  obtain ⟨other, -, -, atTool⟩ := (isGraph.edge _ _).1 back
  exact entryId_ne_toolId entry other.matcher (atEntry.symm.trans atTool)

theorem plain : graph.Plain := by
  intro key node found
  obtain ⟨entry, -, ⟨-, rfl⟩ | ⟨-, rfl⟩⟩ := isGraph.node key node found <;> rfl

theorem decides_entry {entry : PermissionEntry} (listed : entry ∈ entries)
    (literal : Literal entry.matcher) (acts : claim.action = some action) {made : Decision}
    (decides : Decides regexes graph (entry.id path) (flow (entry.id path)) claim made) :
    made = if entry.matcher = action then entry.decision else .deny := by
  have atNode := isGraph.entry entry listed
  unfold PermissionEntry.node at atNode
  rw [gateForMatcher_literal literal] at atNode
  exact decision_exactMatch atNode acts decides

theorem permitted_iff (literal : ∀ entry ∈ entries, Literal entry.matcher)
    (run : Traversed regexes graph claims result flow) (listed : claim ∈ claims) (acts : claim.action = some action) :
    result.finalDecisions[claim.claimantId]? = some .permit ↔ ∀ entry ∈ entries, entry.matcher = action ∧ entry.decision ≠ .deny := by
  constructor
  · intro permitted entry member
    have isEntry := isGraph.isEntry member
    obtain ⟨made, decides⟩ := run.evaluable _ isEntry.1 claim (run.arrives_entry isEntry listed)
    have undenied := (run.of_permitted permitted decides).1
    rw [isGraph.decides_entry member (literal entry member) acts decides] at undenied
    split_ifs at undenied with named
    · exact ⟨named, undenied⟩
    · exact absurd rfl undenied
  · intro named
    refine run.permitted_of_tracked listed (· ∈ graph.nodes) (fun node isEntry => isEntry.1) fun node made inGraph decides => ?_
    obtain ⟨governanceNode, found⟩ := mem_iff_lookup.1 inGraph
    obtain ⟨entry, member, ⟨rfl, rfl⟩ | ⟨rfl, rfl⟩⟩ := isGraph.node node governanceNode found
    · have decided := isGraph.decides_entry member (literal entry member) acts decides
      rw [if_pos (named entry member).1] at decided
      rw [decided]
      have link : graph.Edge (entry.id path) (toolId entry.matcher) := (isGraph.edge _ _).2 ⟨entry, member, rfl, rfl⟩
      exact ⟨(named entry member).2, fun _ => ⟨⟨_, link⟩, fun next other => (run.closed.ends other).2⟩⟩
    · have decided := decision_exactMatch found acts decides
      rw [if_pos (named entry member).1] at decided
      rw [decided]
      exact ⟨nofun, nofun⟩

theorem denied_of_not_permitted (literal : ∀ entry ∈ entries, Literal entry.matcher)
    (run : Traversed regexes graph claims result flow) (listed : claim ∈ claims) (acts : claim.action = some action)
    {entry : PermissionEntry} (member : entry ∈ entries) (unnamed : ¬(entry.matcher = action ∧ entry.decision ≠ .deny)) :
    result.finalDecisions[claim.claimantId]? = some .deny := by
  have isEntry := isGraph.isEntry member
  obtain ⟨made, decides⟩ := run.evaluable _ isEntry.1 claim (run.arrives_entry isEntry listed)
  obtain rfl : made = .deny := by
    rw [isGraph.decides_entry member (literal entry member) acts decides]
    split_ifs with named
    · by_contra undenied
      exact unnamed ⟨named, undenied⟩
    · rfl
  refine (run.records _ _).2 ⟨⟨_, isEntry.1, claim, rfl, decides, by simp⟩, fun other _ => Nat.zero_le _⟩

end

end IsPermissionGraph

theorem gateFields_gateForMatcher (matcher : String) (decision : Decision) : gateFields (gateForMatcher matcher decision) = [] := by
  unfold gateForMatcher
  split
  · rfl
  · dsimp only
    split_ifs <;> rfl

theorem traverses (parsed : parseClaudeDir regexes (permissionsDirectory path permissions) = .ok graph)
    (nonempty : permissionEntries permissions ≠ [])
    (validated : validateGovernanceClaims claims = .ok ⟨⟩) : ∃ result, traverse regexes graph claims = .ok result := by
  have isGraph := isPermissionGraph_of_parsed parsed
  obtain ⟨entry, listed⟩ := List.exists_mem_of_ne_nil _ nonempty
  have inhabited : graph.nodes.isEmpty = false := by
    have known := (isGraph.isEntry listed).1
    rw [Std.ExtTreeMap.isEmpty_eq_false_iff]
    intro empty
    rw [empty] at known
    exact Std.ExtTreeMap.not_mem_empty known
  have provided : graph.MetricsProvided claims := by
    intro key node found field read
    have noFields : referencedFields node = [] := by
      obtain ⟨entry, -, ⟨-, rfl⟩ | ⟨-, rfl⟩⟩ := isGraph.node key node found
      · simp only [PermissionEntry.node, referencedFields, List.flatMap_cons, gateFields_gateForMatcher, List.flatMap_nil, List.append_nil]
      · rfl
    rw [noFields] at read
    cases read
  have runnable : graph.Runnable regexes := ⟨⟨inhabited, isGraph.acyclic, (build_eq_ok parsed).2.2⟩, isGraph.plain⟩
  obtain ⟨result, run, -⟩ := runnable.traverses ⟨validated, provided⟩
  exact ⟨result, run⟩

/-- What a traversal finally decides on a claim, if it succeeds. -/
def finalDecision (regexes : RegexEngine) (graph : GovernanceGraph) (claims : List GovernanceClaim) (claim : GovernanceClaim) : Option Decision :=
  (traverse regexes graph claims).toOption.bind fun result => result.finalDecisions[claim.claimantId]?

/-- The decision on an action that the permission lists stand for. -/
structure KeepsMeaning (permissions : ClaudePermissions) (action : String) (final : Option Decision) : Prop where
  denies : action ∈ permissions.deny → final = some .deny
  asks : action ∈ permissions.ask → action ∉ permissions.allow → final ≠ some .permit
  allows : action ∈ permissions.allow → action ∉ permissions.deny → action ∉ permissions.ask → final = some .permit

def OnlyAsked (permissions : ClaudePermissions) (action : String) : Prop :=
  permissions.allow = [] ∧ permissions.deny = [] ∧ action ∈ permissions.ask ∧ ∀ matcher ∈ permissions.ask, matcher = action

/-- The lists allow the action without asking, and name another. -/
def AllowedAmongOthers (permissions : ClaudePermissions) (action : String) : Prop :=
  action ∈ permissions.allow ∧ action ∉ permissions.deny ∧ action ∉ permissions.ask ∧
    ∃ matcher ∈ permissions.allow ++ permissions.deny ++ permissions.ask, matcher ≠ action

theorem forall_zipIdx (matchers : List String) {motive : String → Prop} :
    (∀ entry ∈ matchers.zipIdx, motive entry.1) ↔ ∀ matcher ∈ matchers, motive matcher := by
  conv_rhs => rw [← List.zipIdx_map_fst 0 matchers]
  exact List.forall_mem_map.symm

theorem forall_entries {motive : String → Decision → Prop} :
    (∀ entry ∈ permissionEntries permissions, motive entry.matcher entry.decision) ↔
      (∀ matcher ∈ permissions.allow, motive matcher .permit) ∧ (∀ matcher ∈ permissions.deny, motive matcher .deny) ∧
        ∀ matcher ∈ permissions.ask, motive matcher .escalate := by
  simp only [permissionEntries, permissionFields, List.flatMap_cons, List.flatMap_nil, List.append_nil, List.forall_mem_append, List.forall_mem_map]
  exact and_congr (forall_zipIdx permissions.allow (motive := fun matcher => motive matcher .permit))
    (and_congr (forall_zipIdx permissions.deny (motive := fun matcher => motive matcher .deny))
      (forall_zipIdx permissions.ask (motive := fun matcher => motive matcher .escalate)))

theorem allNamed_iff : (∀ entry ∈ permissionEntries permissions, entry.matcher = action ∧ entry.decision ≠ .deny) ↔
    (∀ matcher ∈ permissions.allow, matcher = action) ∧ permissions.deny = [] ∧ ∀ matcher ∈ permissions.ask, matcher = action := by
  rw [forall_entries (motive := fun matcher decision => matcher = action ∧ decision ≠ .deny)]
  refine and_congr (by simp) (and_congr ?_ (by simp))
  rw [List.eq_nil_iff_forall_not_mem]
  simp

theorem finalDecision_eq (parsed : parseClaudeDir regexes (permissionsDirectory path permissions) = .ok graph)
    (literal : ∀ entry ∈ permissionEntries permissions, Literal entry.matcher) (nonempty : permissionEntries permissions ≠ [])
    (validated : validateGovernanceClaims claims = .ok ⟨⟩) (listed : claim ∈ claims) (acts : claim.action = some action) :
    ((∀ entry ∈ permissionEntries permissions, entry.matcher = action ∧ entry.decision ≠ .deny) →
      finalDecision regexes graph claims claim = some .permit) ∧
    (¬(∀ entry ∈ permissionEntries permissions, entry.matcher = action ∧ entry.decision ≠ .deny) →
      finalDecision regexes graph claims claim = some .deny) := by
  have isGraph := isPermissionGraph_of_parsed parsed
  obtain ⟨result, run⟩ := traverses parsed nonempty validated
  obtain ⟨flow, traversed⟩ := exists_traversed (closed_of_valid (build_eq_ok parsed).2.2) isGraph.acyclic run
  have final : finalDecision regexes graph claims claim = result.finalDecisions[claim.claimantId]? := by
    rw [finalDecision, run]
    rfl
  rw [final]
  refine ⟨(isGraph.permitted_iff literal traversed listed acts).2, fun unnamed => ?_⟩
  push Not at unnamed
  obtain ⟨entry, member, missed⟩ := unnamed
  exact isGraph.denied_of_not_permitted literal traversed listed acts member fun named => named.2 (missed named.1)

theorem keepsMeaning_iff (parsed : parseClaudeDir regexes (permissionsDirectory path permissions) = .ok graph)
    (literal : ∀ matcher ∈ permissions.allow ++ permissions.deny ++ permissions.ask, Literal matcher)
    (validated : validateGovernanceClaims claims = .ok ⟨⟩) (listed : claim ∈ claims) (acts : claim.action = some action) :
    KeepsMeaning permissions action (finalDecision regexes graph claims claim) ↔
      ¬OnlyAsked permissions action ∧ ¬AllowedAmongOthers permissions action := by
  have literals : ∀ entry ∈ permissionEntries permissions, Literal entry.matcher := by
    rw [forall_entries (motive := fun matcher _ => Literal matcher)]
    simpa only [List.forall_mem_append, and_assoc] using literal
  by_cases empty : permissionEntries permissions = []
  · -- no list names anything
    have lists : (∀ matcher ∈ permissions.allow, False) ∧ (∀ matcher ∈ permissions.deny, False) ∧
        ∀ matcher ∈ permissions.ask, False :=
      (forall_entries (motive := fun _ _ => False)).1 (by simp [empty])
    exact ⟨fun _ => ⟨fun only => lists.2.2 _ only.2.2.1, fun among => lists.1 _ among.1⟩, fun _ => ⟨fun denied => (lists.2.1 _ denied).elim,
      fun asked _ => (lists.2.2 _ asked).elim, fun allowed _ _ => (lists.1 _ allowed).elim⟩⟩
  obtain ⟨permits, denies⟩ := finalDecision_eq parsed literals empty validated listed acts
  rw [allNamed_iff] at permits denies
  by_cases named : (∀ matcher ∈ permissions.allow, matcher = action) ∧ permissions.deny = [] ∧
    ∀ matcher ∈ permissions.ask, matcher = action
  · obtain ⟨allowed, undenied, asked⟩ := named
    rw [permits ⟨allowed, undenied, asked⟩]
    constructor
    · intro keeps
      refine ⟨fun only => ?_, fun among => ?_⟩
      · exact keeps.asks only.2.2.1 (by rw [only.1]; exact List.not_mem_nil) rfl
      · obtain ⟨-, -, -, matcher, member, other⟩ := among
        rw [undenied, List.append_nil, List.mem_append] at member
        exact other (member.elim (allowed matcher) (asked matcher))
    · rintro ⟨notOnly, -⟩
      refine ⟨fun denied => ?_, fun member unallowed => ?_, fun _ _ _ => rfl⟩
      · rw [undenied] at denied
        cases denied
      · have none : permissions.allow = [] := List.eq_nil_iff_forall_not_mem.2 fun matcher present => unallowed (allowed matcher present ▸ present)
        exact absurd ⟨none, undenied, member, asked⟩ notOnly
  · rw [denies named]
    constructor
    · intro keeps
      refine ⟨fun only => named ?_, fun among => ?_⟩
      · obtain ⟨noneAllowed, undenied, -, asked⟩ := only
        exact ⟨by simp [noneAllowed], undenied, asked⟩
      · cases keeps.allows among.1 among.2.1 among.2.2.1
    · rintro ⟨-, notAmong⟩
      refine ⟨fun _ => rfl, fun _ _ => nofun, fun allowed undenied unasked => absurd ⟨allowed, undenied, unasked, ?_⟩ notAmong⟩
      by_contra alone
      push Not at alone
      simp only [List.forall_mem_append] at alone
      have noDeny : permissions.deny = [] := List.eq_nil_iff_forall_not_mem.2 fun matcher present => undenied (alone.1.2 matcher present ▸ present)
      exact named ⟨alone.1.1, noDeny, alone.2⟩

theorem permissions_parse (regexes : RegexEngine) (path : String) (literal : ∀ entry ∈ permissionEntries permissions, Literal entry.matcher)
    (named : ∀ entry ∈ permissionEntries permissions, isBlank entry.matcher = false) :
    ∃ graph, parseClaudeDir regexes (permissionsDirectory path permissions) = .ok graph := by
  have holds := holds_parsePermissions (permissionsDirectory path permissions).settingsPath permissions
  refine exists_build (fun key node found => ?_) fun edge listed => ?_
  · obtain ⟨entry, listed, which⟩ := holds.node key node found
    have valid : ∀ decision, [Gate.exactMatch entry.matcher decision].forM (validateGate regexes) = .ok ⟨⟩ := fun decision => by
      refine forM_eq_ok.2 (List.forall_mem_singleton.2 ?_)
      rw [validateGate, validateGateString, named entry listed]
      rfl
    rcases which with ⟨-, rfl⟩ | ⟨-, rfl⟩
    · rw [PermissionEntry.node, gateForMatcher_literal (literal entry listed)]
      exact valid entry.decision
    · exact valid .permit
  · obtain ⟨entry, member, rfl⟩ := (holds.edge edge).1 listed
    exact ⟨mem_iff_lookup.2 ⟨_, holds.entry entry member⟩, holds.tool entry member⟩

def actingClaim (claimant action : String) : GovernanceClaim := ⟨claimant, 1, none, none, some action, none, ∅⟩

def readingPermissions : ClaudePermissions := ⟨["Read", "Grep"], [], []⟩

theorem readingPermissions_parses :
    ∃ graph, parseClaudeDir noContentRegexes (permissionsDirectory ".claude" readingPermissions) = .ok graph :=
  permissions_parse noContentRegexes ".claude" (by decide +kernel) (by decide +kernel)

theorem keepsMeaning_iff_reading : ∃ graph, parseClaudeDir noContentRegexes (permissionsDirectory ".claude" readingPermissions) = .ok graph ∧
    (KeepsMeaning readingPermissions "Read" (finalDecision noContentRegexes graph [actingClaim "agent" "Read"] (actingClaim "agent" "Read")) ↔
      ¬OnlyAsked readingPermissions "Read" ∧ ¬AllowedAmongOthers readingPermissions "Read") := by
  obtain ⟨graph, parsed⟩ := readingPermissions_parses
  exact ⟨graph, parsed, keepsMeaning_iff parsed (by decide +kernel) (by decide +kernel) List.mem_cons_self rfl⟩

/-- With two tools allowed, each of them is denied by the entry of the other. -/
theorem allowed_denied_reading : ¬∀ (regexes : RegexEngine) (path : String) (permissions : ClaudePermissions) (graph : GovernanceGraph)
    (claims : List GovernanceClaim) (claim : GovernanceClaim) (action : String),
    parseClaudeDir regexes (permissionsDirectory path permissions) = .ok graph →
    (∀ matcher ∈ permissions.allow ++ permissions.deny ++ permissions.ask, Literal matcher) →
    validateGovernanceClaims claims = .ok ⟨⟩ → claim ∈ claims → claim.action = some action →
    KeepsMeaning permissions action (finalDecision regexes graph claims claim) := by
  intro keeps
  obtain ⟨graph, parsed⟩ := readingPermissions_parses
  have validated : validateGovernanceClaims [actingClaim "agent" "Read"] = .ok ⟨⟩ := by decide +kernel
  have acts : (actingClaim "agent" "Read").action = some "Read" := rfl
  have meaning := keeps noContentRegexes ".claude" readingPermissions graph [actingClaim "agent" "Read"] (actingClaim "agent" "Read") "Read" parsed
    (by decide +kernel) validated List.mem_cons_self acts
  have permitted := meaning.allows (by decide) (by decide) (by decide)
  have denied := (finalDecision_eq parsed (by decide +kernel) (by decide) validated List.mem_cons_self acts).2 (by decide +kernel)
  rw [denied] at permitted
  cases permitted

end

end ClaudeDir

end Legitimacy
