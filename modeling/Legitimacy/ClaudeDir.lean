import Legitimacy.GraphPolicy
import Legitimacy.Json

namespace Legitimacy

namespace ClaudeDir

open ExceptRun

section

def labelChar (character : Char) : Char :=
  if character.isAlphanum ∨ character ∈ ['-', '_', ':', '.'] then character.toLower else '-'

def trimDashes (characters : List Char) : List Char :=
  (((characters.dropWhile (· = '-')).reverse).dropWhile (· = '-')).reverse

def normalizeLabel (value : String) : String :=
  let trimmed := trimDashes (value.toList.map labelChar)
  if trimmed = [] then "unnamed" else String.ofList trimmed

inductive NodeKind where
  | permission
  | tool
  | hook
  | skill
  | subagent
deriving DecidableEq

def NodeKind.tag : NodeKind → String
  | .permission => "permission:"
  | .tool => "tool:"
  | .hook => "hook:"
  | .skill => "skill:"
  | .subagent => "subagent:"

theorem NodeKind.nonBlank (kind : NodeKind) (rest : String) : isBlank (kind.tag ++ rest) = false := by
  unfold isBlank
  rw [String.toList_append, List.all_append]
  cases kind <;> rfl

def generatedId (kind : NodeKind) (rest : String) : NodeId := ⟨kind.tag ++ rest, kind.nonBlank rest⟩

def toolId (tool : String) : NodeId := generatedId .tool (normalizeLabel tool)

def skillId (skill : String) : NodeId := generatedId .skill (normalizeLabel skill)

def subagentId (agent : String) : NodeId := generatedId .subagent (normalizeLabel agent)

def permissionId (field path : String) (index : Nat) : NodeId := generatedId .permission s!"{field}:{normalizeLabel path}:{index}"

def hookId (event path : String) (index : Nat) : NodeId := generatedId .hook s!"{normalizeLabel event}:{normalizeLabel path}:{index}"

def stripStart (beginning value : String) : Option String :=
  if startsWith value beginning then some (String.ofList (value.toList.drop beginning.length)) else none

def gateForMatcher (matcher : String) (decision : Decision) : Gate :=
  match stripStart "regex:" matcher with
  | some regex => .contentMatch regex decision
  | none =>
    let beginning := matcher.toList.takeWhile (· ≠ '*')
    if '*' ∈ matcher.toList ∧ beginning ≠ [] then .prefixMatch (String.ofList beginning) decision else .exactMatch matcher decision

end

section

structure ClaudeGraph where
  nodes : BTreeMap NodeId GovernanceNode
  edges : List (NodeId × NodeId)
  keyed : ∀ (key : NodeId) (node : GovernanceNode), nodes[key]? = some node → nodeId node = key

namespace ClaudeGraph

def empty : ClaudeGraph := ⟨∅, [], by simp⟩

/-- The first node of an id stays. -/
def addBinaryNode (graph : ClaudeGraph) (id : NodeId) (name : String) (gates : List Gate) (default : Decision) : ClaudeGraph :=
  if graph.nodes.contains id then graph
  else
    { nodes := graph.nodes.insert id (.binary id name gates default .firstMatch)
      edges := graph.edges
      keyed := by
        intro key node found
        rw [lookup_insert] at found
        split_ifs at found with same
        · rw [same, ← Option.some.inj found]
          rfl
        · exact graph.keyed key node found }

def addToolNode (graph : ClaudeGraph) (tool : String) : ClaudeGraph :=
  graph.addBinaryNode (toolId tool) tool [.exactMatch tool .permit] .deny

def addEdge (graph : ClaudeGraph) (source target : NodeId) : ClaudeGraph :=
  if source ≠ target ∧ (source, target) ∉ graph.edges then { graph with edges := graph.edges ++ [(source, target)] } else graph

def build (regexes : RegexEngine) (graph : ClaudeGraph) : Except LegitimacyError GovernanceGraph := do
  let builder ← (graph.nodes.toList.map Prod.snd).foldlM (GraphBuilder.addNode regexes) .new
  let builder ← graph.edges.foldlM (fun builder edge => builder.addEdge edge.1 edge.2 .passThrough) builder
  builder.build

end ClaudeGraph

end

section

structure ClaudePermissions where
  allow : List String
  deny : List String
  ask : List String

structure ClaudeSettings where
  permissions : ClaudePermissions
  hooks : Json

/-- The front matter of a skill, and the name of the directory that its file is in. -/
structure SkillFile where
  parent : Option String
  name : Option String
  allowedTools : List String
  context : Option String
  agent : Option String

/-- The front matter of an agent, and the stem of its file's name. -/
structure AgentFile where
  stem : Option String
  name : Option String
  tools : List String
  disallowedTools : List String
  preloadedSkills : List String
  maxTurns : Option UInt64
  model : Option String
  hooks : Option Json

/-- A directory as its files are read, the files of a kind in the order in which they are visited. -/
structure ClaudeDirectory where
  path : String
  settings : Option ClaudeSettings
  pluginHooks : Option ClaudeSettings
  skills : List SkillFile
  agents : List AgentFile

def SkillFile.label (skill : SkillFile) : String := (skill.name.or skill.parent).getD "skill"

def AgentFile.label (agent : AgentFile) : String := (agent.name.or agent.stem).getD "subagent"

def AgentFile.gates (agent : AgentFile) : List Gate :=
  agent.model.toList.map (fun model => .exactMatch s!"model:{model}" .permit) ++
    agent.maxTurns.toList.map (fun maxTurns => .thresholdGate "maxTurns" maxTurns.toFloat .permit) ++
    agent.disallowedTools.map (fun tool => gateForMatcher tool .deny) ++
    if agent.hooks.isSome then [.contentMatch "hooks" .deny] else []

end

section

/-- `path.join(name)` for a relative name. -/
def joinPath (path name : String) : String :=
  if path = "" ∨ path.toList.getLast? = some '/' then path ++ name else path ++ "/" ++ name

def ClaudeDirectory.settingsPath (directory : ClaudeDirectory) : String := joinPath directory.path "settings.json"

def ClaudeDirectory.pluginHooksPath (directory : ClaudeDirectory) : String := joinPath (joinPath directory.path "hooks") "hooks.json"

def addPermission (path field : String) (decision : Decision) (graph : ClaudeGraph) (entry : String × Nat) : ClaudeGraph :=
  let id := permissionId field path entry.2
  let graph := graph.addBinaryNode id s!"{field} {entry.1}" [gateForMatcher entry.1 decision] .deny
  (graph.addToolNode entry.1).addEdge id (toolId entry.1)

def permissionFields (permissions : ClaudePermissions) : List (String × Decision × List String) :=
  [("allow", .permit, permissions.allow), ("deny", .deny, permissions.deny), ("ask", .escalate, permissions.ask)]

def parsePermissions (graph : ClaudeGraph) (path : String) (permissions : ClaudePermissions) : ClaudeGraph :=
  (permissionFields permissions).foldl (fun graph field => field.2.2.zipIdx.foldl (addPermission path field.1 field.2.1) graph) graph

def field? (key : String) : Json → Option Json
  | .obj fields => fields.lookup key
  | _ => none

def text? : Json → Option String
  | .str value => some value
  | _ => none

def hookEntries : Json → List Json
  | .arr entries => entries
  | .obj fields => [.obj fields]
  | _ => []

def hookMatcher (event : String) (entry : Json) : String :=
  ((((field? "matcher" entry).or (field? "tool" entry)).or (field? "toolName" entry)).bind text?).getD event

def addHook (path event : String) (graph : ClaudeGraph) (entry : Json × Nat) : ClaudeGraph :=
  let matcher := hookMatcher event entry.1
  let id := hookId event path entry.2
  let graph := graph.addBinaryNode id s!"{event} hook {matcher}" [gateForMatcher matcher .permit] .deny
  (graph.addToolNode matcher).addEdge id (toolId matcher)

def parseHooksValue (graph : ClaudeGraph) (path : String) : Json → ClaudeGraph
  | .obj events => events.foldl (fun graph event => (hookEntries event.2).zipIdx.foldl (addHook path event.1) graph) graph
  | _ => graph

def parseSettingsFile (graph : ClaudeGraph) (path : String) : Option ClaudeSettings → ClaudeGraph
  | none => graph
  | some settings => parseHooksValue (parsePermissions graph path settings.permissions) path settings.hooks

def addTools (id : NodeId) (graph : ClaudeGraph) (tools : List String) : ClaudeGraph :=
  tools.foldl (fun graph tool => (graph.addToolNode tool).addEdge id (toolId tool)) graph

def SkillFile.forked (skill : SkillFile) : Option String := if skill.context = some "fork" then skill.agent else none

def parseSkill (graph : ClaudeGraph) (skill : SkillFile) : ClaudeGraph :=
  let id := skillId skill.label
  let graph := addTools id (graph.addBinaryNode id skill.label [] .permit) skill.allowedTools
  match skill.forked with
  | some agent => (graph.addBinaryNode (subagentId agent) agent [] .permit).addEdge id (subagentId agent)
  | none => graph

def parseAgent (graph : ClaudeGraph) (agent : AgentFile) : ClaudeGraph :=
  let id := subagentId agent.label
  let graph := addTools id (graph.addBinaryNode id agent.label agent.gates .permit) agent.tools
  agent.preloadedSkills.foldl (fun graph skill => (graph.addBinaryNode (skillId skill) skill [] .permit).addEdge id (skillId skill)) graph

def parseClaudeDir (regexes : RegexEngine) (directory : ClaudeDirectory) : Except LegitimacyError GovernanceGraph :=
  let graph := parseSettingsFile .empty directory.settingsPath directory.settings
  let graph := parseSettingsFile graph directory.pluginHooksPath directory.pluginHooks
  let graph := directory.skills.foldl parseSkill graph
  let graph := directory.agents.foldl parseAgent graph
  graph.build regexes

end

section

variable {graph : ClaudeGraph} {key : NodeId}

theorem generatedId_inj {kind other : NodeKind} {rest tail : String} (same : generatedId kind rest = generatedId other tail) :
    kind = other ∧ rest = tail := by
  have texts := congrArg (fun id : NodeId => id.asStr.toList) same
  dsimp only [generatedId] at texts
  rw [String.toList_append, String.toList_append] at texts
  -- the first two characters tell the kinds apart
  have kinds : kind = other := by
    have starts := congrArg (List.take 2) texts
    cases kind <;> cases other <;> first | rfl | exact absurd starts (by simp [NodeKind.tag])
  subst kinds
  exact ⟨rfl, String.toList_injective (List.append_cancel_left texts)⟩

theorem subagentId_inj {agent other : String} : subagentId agent = subagentId other ↔ normalizeLabel agent = normalizeLabel other :=
  ⟨fun same => (generatedId_inj same).2, fun same => congrArg (generatedId .subagent) same⟩

theorem lookup_addBinaryNode (id : NodeId) (name : String) (gates : List Gate) (default : Decision) :
    (graph.addBinaryNode id name gates default).nodes[key]? =
      (graph.nodes[key]?).or (if key = id then some (.binary id name gates default .firstMatch) else none) := by
  unfold ClaudeGraph.addBinaryNode
  split_ifs with known same same
  · subst same
    obtain ⟨node, found⟩ := mem_iff_lookup.1 (Std.ExtTreeMap.mem_iff_contains.2 known)
    rw [found, Option.some_or]
  · rw [Option.or_none]
  · subst same
    have missing : graph.nodes[key]? = none := Std.ExtTreeMap.getElem?_eq_none fun member => known (Std.ExtTreeMap.mem_iff_contains.1 member)
    rw [lookup_insert, if_pos rfl, missing, Option.none_or]
  · rw [lookup_insert, if_neg same, Option.or_none]

theorem lookup_addEdge (source target : NodeId) : (graph.addEdge source target).nodes[key]? = graph.nodes[key]? := by
  unfold ClaudeGraph.addEdge
  split_ifs <;> rfl

end

section

variable {regexes : RegexEngine} {builder next : GraphBuilder} {graph : ClaudeGraph} {built : GovernanceGraph}

theorem lookup_addNode {node : GovernanceNode} (run : builder.addNode regexes node = .ok next) (key : NodeId) :
    next.nodes[key]? = if key = nodeId node then some node else builder.nodes[key]? := by
  obtain ⟨⟨⟩, -, run⟩ := bind_eq_ok.1 run
  obtain ⟨-, made⟩ := guard_eq_ok.1 run
  obtain rfl := Except.ok.inj made
  exact lookup_insert builder.nodes (nodeId node) key node

def passing (edges : List (NodeId × NodeId)) : List GovernanceEdge := edges.map fun edge => ⟨edge.1, edge.2, .passThrough⟩

theorem addNodes_eq_ok {nodes : List GovernanceNode} (run : nodes.foldlM (GraphBuilder.addNode regexes) .new = .ok builder) :
    (∀ (key : NodeId) (node : GovernanceNode), builder.nodes[key]? = some node ↔ node ∈ nodes ∧ nodeId node = key) ∧ builder.edges = [] ∧
      builder.Sound regexes := by
  refine foldlM_invariant (fun done builder => (∀ (key : NodeId) (node : GovernanceNode), builder.nodes[key]? = some node ↔
    node ∈ done ∧ nodeId node = key) ∧ builder.edges = [] ∧ builder.Sound regexes)
    ⟨by simp [GraphBuilder.new], rfl, GraphBuilder.new_sound⟩ ?_ run
  rintro done node - before after - ⟨records, empty, sound⟩ stepped
  refine ⟨fun key other => ?_, ?_, sound.addNode stepped⟩
  · have fresh : before.nodes[nodeId node]? = none := by
      obtain ⟨⟨⟩, -, run⟩ := bind_eq_ok.1 stepped
      exact Std.ExtTreeMap.getElem?_eq_none fun member => (guard_eq_ok.1 run).1 (Std.ExtTreeMap.mem_iff_contains.1 member)
    rw [lookup_addNode stepped, List.mem_append, List.mem_singleton]
    by_cases same : key = nodeId node
    · have absent : ¬(other ∈ done ∧ nodeId other = key) := fun both => by
        rw [← records key other, same, fresh] at both
        cases both
      rw [if_pos same, Option.some_inj]
      constructor
      · rintro rfl
        exact ⟨Or.inr rfl, same.symm⟩
      · rintro ⟨earlier | rfl, atKey⟩
        · exact absurd ⟨earlier, atKey⟩ absent
        · rfl
    · rw [if_neg same, records key other]
      constructor
      · exact fun both => ⟨Or.inl both.1, both.2⟩
      · rintro ⟨earlier | rfl, atKey⟩
        · exact ⟨earlier, atKey⟩
        · exact absurd atKey.symm same
  · obtain ⟨⟨⟩, -, run⟩ := bind_eq_ok.1 stepped
    obtain ⟨-, made⟩ := guard_eq_ok.1 run
    exact Except.ok.inj made ▸ empty

theorem addEdges_eq_ok {edges : List (NodeId × NodeId)} (sound : builder.Sound regexes) (empty : builder.edges = [])
    (run : edges.foldlM (fun builder edge => builder.addEdge edge.1 edge.2 .passThrough) builder = .ok next) :
    next.nodes = builder.nodes ∧ next.edges = passing edges ∧ next.Sound regexes := by
  refine foldlM_invariant (fun done next => next.nodes = builder.nodes ∧ next.edges = passing done ∧ next.Sound regexes)
    ⟨rfl, empty, sound⟩ ?_ run
  intro done edge _ before after _ ⟨same, edges, sound⟩ stepped
  refine ⟨?_, ?_, sound.addEdge stepped⟩ <;> obtain rfl := Except.ok.inj stepped
  · exact same
  · rw [passing, List.map_append]
    exact congrArg (· ++ _) edges

theorem build_eq_ok (run : graph.build regexes = .ok built) : (∀ key : NodeId, built.nodes[key]? = graph.nodes[key]?) ∧
    built.edges = passing graph.edges ∧ validateGovernanceGraph regexes built = .ok ⟨⟩ := by
  obtain ⟨withNodes, nodesRun, run⟩ := bind_eq_ok.1 run
  obtain ⟨withEdges, edgesRun, released⟩ := bind_eq_ok.1 run
  obtain ⟨records, empty, soundNodes⟩ := addNodes_eq_ok nodesRun
  obtain ⟨sameNodes, edges, sound⟩ := addEdges_eq_ok soundNodes empty edgesRun
  have nodes : ∀ key : NodeId, withEdges.nodes[key]? = graph.nodes[key]? := by
    intro key
    refine Option.ext fun node => ?_
    rw [sameNodes, records key node, List.mem_map]
    constructor
    · rintro ⟨⟨⟨id, _⟩, listed, rfl⟩, rfl⟩
      have found := Std.ExtTreeMap.mem_toList_iff_getElem?_eq_some.1 listed
      exact graph.keyed id _ found ▸ found
    · intro found
      exact ⟨⟨(key, node), Std.ExtTreeMap.mem_toList_iff_getElem?_eq_some.2 found, rfl⟩, graph.keyed key node found⟩
  have valid := sound.build released
  obtain ⟨⟨⟩, -, made⟩ := bind_eq_ok.1 released
  obtain rfl := Except.ok.inj made
  exact ⟨nodes, edges, valid⟩

theorem exists_addNodes {nodes : List GovernanceNode} (valid : ∀ node ∈ nodes, validateGovernanceNode regexes node = .ok ⟨⟩)
    (distinct : (nodes.map nodeId).Nodup) : ∃ builder, nodes.foldlM (GraphBuilder.addNode regexes) .new = .ok builder := by
  suffices added : ∃ builder, nodes.foldlM (GraphBuilder.addNode regexes) .new = .ok builder ∧ ∀ key, key ∈ builder.nodes ↔
    key ∈ nodes.map nodeId from
    added.imp fun _ both => both.1
  refine foldlM_progress (fun done (builder : GraphBuilder) => ∀ key, key ∈ builder.nodes ↔ key ∈ done.map nodeId)
    (by simp [GraphBuilder.new]) ?_
  intro done node rest builder split known
  have fresh : nodeId node ∉ builder.nodes := by
    rw [known]
    rw [split, List.map_append, List.map_cons] at distinct
    exact fun earlier => (List.nodup_append.1 distinct).2.2 _ earlier _ List.mem_cons_self rfl
  have isValid := valid node (split ▸ List.mem_append_right done List.mem_cons_self)
  have absent : ¬builder.nodes.contains (nodeId node) = true := fun contained => fresh (Std.ExtTreeMap.mem_iff_contains.2 contained)
  refine ⟨_, bind_eq_ok.2 ⟨⟨⟩, isValid, guard_eq_ok.2 ⟨absent, rfl⟩⟩, fun key => ?_⟩
  rw [Std.ExtTreeMap.mem_insert, known, List.map_append, List.mem_append, List.map_singleton, List.mem_singleton, or_comm,
    Std.LawfulEqCmp.compare_eq_iff_eq, eq_comm (a := nodeId node)]

theorem exists_addEdges (edges : List (NodeId × NodeId)) (builder : GraphBuilder) :
    ∃ next, edges.foldlM (fun builder edge => builder.addEdge edge.1 edge.2 .passThrough) builder = .ok next := by
  induction edges generalizing builder with
  | nil => exact ⟨builder, rfl⟩
  | cons edge rest ih =>
    obtain ⟨next, run⟩ := ih { builder with edges := builder.edges ++ [⟨edge.1, edge.2, .passThrough⟩] }
    exact ⟨next, run⟩

/-- Valid nodes that hold the ends of all edges can be built. -/
theorem exists_build (valid : ∀ (key : NodeId) (node : GovernanceNode), graph.nodes[key]? = some node →
    validateGovernanceNode regexes node = .ok ⟨⟩)
    (ends : ∀ edge ∈ graph.edges, edge.1 ∈ graph.nodes ∧ edge.2 ∈ graph.nodes) : ∃ built, graph.build regexes = .ok built := by
  have ids : (graph.nodes.toList.map Prod.snd).map nodeId = graph.nodes.toList.map Prod.fst := by
    rw [List.map_map]
    refine List.map_congr_left fun entry listed => ?_
    exact graph.keyed entry.1 entry.2 (Std.ExtTreeMap.mem_toList_iff_getElem?_eq_some.1 listed)
  have allValid : ∀ node ∈ graph.nodes.toList.map Prod.snd, validateGovernanceNode regexes node = .ok ⟨⟩ := by
    intro node listed
    obtain ⟨entry, member, rfl⟩ := List.mem_map.1 listed
    exact valid entry.1 entry.2 (Std.ExtTreeMap.mem_toList_iff_getElem?_eq_some.1 member)
  obtain ⟨withNodes, nodesRun⟩ := exists_addNodes allValid (ids ▸ nodup_keys graph.nodes)
  obtain ⟨withEdges, edgesRun⟩ := exists_addEdges graph.edges withNodes
  obtain ⟨records, empty, sound⟩ := addNodes_eq_ok nodesRun
  obtain ⟨sameNodes, edges, -⟩ := addEdges_eq_ok sound empty edgesRun
  have contained : ∀ {key : NodeId}, key ∈ graph.nodes → withEdges.nodes.contains key = true := by
    intro key member
    obtain ⟨node, found⟩ := mem_iff_lookup.1 member
    rw [← Std.ExtTreeMap.mem_iff_contains, sameNodes]
    refine mem_iff_lookup.2 ⟨node, (records key node).2 ⟨?_, graph.keyed key node found⟩⟩
    exact List.mem_map.2 ⟨(key, node), Std.ExtTreeMap.mem_toList_iff_getElem?_eq_some.2 found, rfl⟩
  have checked : withEdges.edges.forM withEdges.checkEnds = .ok ⟨⟩ := by
    refine forM_eq_ok.2 fun made listed => ?_
    rw [edges] at listed
    obtain ⟨edge, member, rfl⟩ := List.mem_map.1 listed
    exact guard_eq_ok.2 ⟨not_not.2 (contained (ends edge member).1), guard_eq_ok.2 ⟨not_not.2 (contained (ends edge member).2), rfl⟩⟩
  exact ⟨_, bind_eq_ok.2 ⟨withNodes, nodesRun, bind_eq_ok.2 ⟨withEdges, edgesRun, bind_eq_ok.2 ⟨⟨⟩, checked, rfl⟩⟩⟩⟩

end

section

variable {key : NodeId} {graph : ClaudeGraph} {name : String}

theorem lookup_foldl {α : Type} {step : ClaudeGraph → α → ClaudeGraph} {items : List α} (each :
    ∀ item ∈ items, ∀ graph, (step graph item).nodes[key]? = graph.nodes[key]?)
    (graph : ClaudeGraph) : (items.foldl step graph).nodes[key]? = graph.nodes[key]? := by
  induction items generalizing graph with
  | nil => rfl
  | cons item rest ih =>
    rw [List.foldl_cons, ih fun other listed => each other (List.mem_cons_of_mem item listed), each item List.mem_cons_self]

theorem lookup_addOther {id : NodeId} (differ : key ≠ id) (name : String) (gates : List Gate) (default : Decision) :
    (graph.addBinaryNode id name gates default).nodes[key]? = graph.nodes[key]? := by
  rw [lookup_addBinaryNode, if_neg differ, Option.or_none]

theorem subagentId_ne {kind : NodeKind} (other : kind ≠ .subagent) (rest : String) : subagentId name ≠ generatedId kind rest := fun same =>
  other (generatedId_inj same).1.symm

theorem subagentId_ne_skillId (skill : String) : subagentId name ≠ skillId skill := subagentId_ne (by decide) _

theorem lookup_addToolNode (tool : String) : (graph.addToolNode tool).nodes[subagentId name]? = graph.nodes[subagentId name]? :=
  lookup_addOther (subagentId_ne (by decide) _) _ _ _

theorem lookup_addTools (id : NodeId) (tools : List String) : (addTools id graph tools).nodes[subagentId name]? = graph.nodes[subagentId name]? :=
  lookup_foldl (fun tool _ graph => by rw [lookup_addEdge, lookup_addToolNode]) graph

theorem lookup_parsePermissions (path : String) (permissions : ClaudePermissions) :
    (parsePermissions graph path permissions).nodes[subagentId name]? = graph.nodes[subagentId name]? := by
  refine lookup_foldl (fun field _ graph => lookup_foldl (fun entry _ graph => ?_) graph) graph
  have differ : subagentId name ≠ permissionId field.1 path entry.2 := subagentId_ne (by decide) _
  unfold addPermission
  rw [lookup_addEdge, lookup_addToolNode, lookup_addOther differ]

theorem lookup_parseHooksValue (path : String) (hooks : Json) :
    (parseHooksValue graph path hooks).nodes[subagentId name]? = graph.nodes[subagentId name]? := by
  cases hooks with
  | obj events =>
    refine lookup_foldl (fun event _ graph => lookup_foldl (fun entry _ graph => ?_) graph) graph
    have differ : subagentId name ≠ hookId event.1 path entry.2 := subagentId_ne (by decide) _
    unfold addHook
    rw [lookup_addEdge, lookup_addToolNode, lookup_addOther differ]
  | _ => rfl

theorem lookup_parseSettingsFile (path : String) (settings : Option ClaudeSettings) :
    (parseSettingsFile graph path settings).nodes[subagentId name]? = graph.nodes[subagentId name]? := by
  cases settings with
  | none => rfl
  | some settings => exact (lookup_parseHooksValue path settings.hooks).trans (lookup_parsePermissions path settings.permissions)

def referenceNode (agent : String) : GovernanceNode := .binary (subagentId agent) agent [] .permit .firstMatch

/-- The skill runs in an agent whose name has this label. -/
def SkillFile.Refers (skill : SkillFile) (name : String) : Prop :=
  ∃ agent ∈ skill.forked, normalizeLabel agent = normalizeLabel name

instance decidableRefers (skill : SkillFile) (name : String) : Decidable (skill.Refers name) :=
  inferInstanceAs (Decidable (∃ agent ∈ skill.forked, normalizeLabel agent = normalizeLabel name))

theorem lookup_parseSkill (skill : SkillFile) : (parseSkill graph skill).nodes[subagentId name]? =
    (graph.nodes[subagentId name]?).or (skill.forked.bind fun agent =>
      if subagentId name = subagentId agent then some (referenceNode agent) else none) := by
  let id := skillId skill.label
  have before : (addTools id (graph.addBinaryNode id skill.label [] .permit) skill.allowedTools).nodes[subagentId name]? =
      graph.nodes[subagentId name]? := by
    rw [lookup_addTools, lookup_addOther (subagentId_ne_skillId _)]
  unfold parseSkill
  dsimp only
  cases skill.forked with
  | none => rw [before, Option.bind_none, Option.or_none]
  | some agent =>
    dsimp only
    rw [lookup_addEdge, lookup_addBinaryNode, before, Option.bind_some]
    rfl

theorem lookup_parseSkill_other {skill : SkillFile} (other : ¬skill.Refers name) :
    (parseSkill graph skill).nodes[subagentId name]? = graph.nodes[subagentId name]? := by
  rw [lookup_parseSkill]
  cases forked : skill.forked with
  | none => rw [Option.bind_none, Option.or_none]
  | some agent =>
    have differ : subagentId name ≠ subagentId agent := fun same => other ⟨agent, forked, (subagentId_inj.1 same).symm⟩
    rw [Option.bind_some, if_neg differ, Option.or_none]

theorem kept_parseSkills {node : GovernanceNode} (skills : List SkillFile) (found : graph.nodes[subagentId name]? = some node) :
    (skills.foldl parseSkill graph).nodes[subagentId name]? = some node := by
  induction skills generalizing graph with
  | nil => exact found
  | cons skill rest ih =>
    refine ih ?_
    rw [lookup_parseSkill, found, Option.some_or]

theorem exists_reference {skills : List SkillFile} (referred : ∃ skill ∈ skills, skill.Refers name)
    (missing : graph.nodes[subagentId name]? = none) :
    ∃ agent, subagentId name = subagentId agent ∧ (skills.foldl parseSkill graph).nodes[subagentId name]? = some (referenceNode agent) := by
  induction skills generalizing graph with
  | nil => simp at referred
  | cons skill rest ih =>
    by_cases refers : skill.Refers name
    · obtain ⟨agent, forked, label⟩ := refers
      have same : subagentId name = subagentId agent := subagentId_inj.2 label.symm
      refine ⟨agent, same, kept_parseSkills rest ?_⟩
      rw [lookup_parseSkill, forked, Option.bind_some, if_pos same, missing, Option.none_or]
    · obtain ⟨other, listed, refersLater⟩ := referred
      have later : other ∈ rest := (List.mem_cons.1 listed).resolve_left fun same => refers (same ▸ refersLater)
      exact ih ⟨other, later, refersLater⟩ ((lookup_parseSkill_other refers).trans missing)

def AgentFile.node (agent : AgentFile) : GovernanceNode := .binary (subagentId agent.label) agent.label agent.gates .permit .firstMatch

theorem lookup_parseAgent (agent : AgentFile) : (parseAgent graph agent).nodes[subagentId name]? =
    (graph.nodes[subagentId name]?).or (if subagentId name = subagentId agent.label then some agent.node else none) := by
  unfold parseAgent
  rw [lookup_foldl fun skill _ graph => by rw [lookup_addEdge, lookup_addOther (subagentId_ne_skillId skill)], lookup_addTools, lookup_addBinaryNode]
  rfl

theorem lookup_parseAgents_other {agents : List AgentFile} (others : ∀ agent ∈ agents, normalizeLabel agent.label ≠ normalizeLabel name) :
    (agents.foldl parseAgent graph).nodes[subagentId name]? = graph.nodes[subagentId name]? := by
  refine lookup_foldl (fun agent listed graph => ?_) graph
  have differ : subagentId name ≠ subagentId agent.label := fun same => others agent listed (subagentId_inj.1 same).symm
  rw [lookup_parseAgent, if_neg differ, Option.or_none]

end

section

def beforeAgents (directory : ClaudeDirectory) : ClaudeGraph :=
  let graph := parseSettingsFile .empty directory.settingsPath directory.settings
  let graph := parseSettingsFile graph directory.pluginHooksPath directory.pluginHooks
  directory.skills.foldl parseSkill graph

variable {regexes : RegexEngine} {directory : ClaudeDirectory} {graph : GovernanceGraph} {agent : AgentFile} {before after : List AgentFile}

theorem lookup_agent (agents : directory.agents = before ++ agent :: after)
    (distinct : ∀ other ∈ before ++ after, normalizeLabel other.label ≠ normalizeLabel agent.label)
    (parsed : parseClaudeDir regexes directory = .ok graph) :
    graph.nodes[subagentId agent.label]? = ((beforeAgents directory).nodes[subagentId agent.label]?).or (some agent.node) := by
  obtain ⟨others, later⟩ := List.forall_mem_append.1 distinct
  rw [(build_eq_ok parsed).1, agents, List.foldl_append, List.foldl_cons, lookup_parseAgents_other later, lookup_parseAgent, if_pos rfl,
    lookup_parseAgents_other others]
  rfl

theorem lookup_settings (name : String) (directory : ClaudeDirectory) :
    let graph := parseSettingsFile .empty directory.settingsPath directory.settings
    (parseSettingsFile graph directory.pluginHooksPath directory.pluginHooks).nodes[subagentId name]? = none := by
  dsimp only
  rw [lookup_parseSettingsFile, lookup_parseSettingsFile]
  rfl

theorem exists_shadow (agents : directory.agents = before ++ agent :: after)
    (distinct : ∀ other ∈ before ++ after, normalizeLabel other.label ≠ normalizeLabel agent.label)
    (parsed : parseClaudeDir regexes directory = .ok graph) (referred : ∃ skill ∈ directory.skills, skill.Refers agent.label) :
    ∃ name, subagentId agent.label = subagentId name ∧ graph.nodes[subagentId agent.label]? = some (referenceNode name) := by
  obtain ⟨name, same, reference⟩ := exists_reference referred (lookup_settings agent.label directory)
  refine ⟨name, same, ?_⟩
  rw [lookup_agent agents distinct parsed, beforeAgents, reference, Option.some_or]

def CarriesGates (graph : GovernanceGraph) (name : String) (gates : List Gate) : Prop :=
  ∃ label default combination, graph.nodes[subagentId name]? = some (.binary (subagentId name) label gates default combination)

/-- An agent's node carries the gates of its file exactly when no skill that forks a context names it, or its file asks for no gate. -/
theorem agent_gates_kept (agents : directory.agents = before ++ agent :: after)
    (distinct : ∀ other ∈ before ++ after, normalizeLabel other.label ≠ normalizeLabel agent.label)
    (parsed : parseClaudeDir regexes directory = .ok graph) :
    CarriesGates graph agent.label agent.gates ↔ (∀ skill ∈ directory.skills, ¬skill.Refers agent.label) ∨ agent.gates = [] := by
  by_cases referred : ∃ skill ∈ directory.skills, skill.Refers agent.label
  · obtain ⟨name, same, shadow⟩ := exists_shadow agents distinct parsed referred
    constructor
    · rintro ⟨label, default, combination, carried⟩
      rw [shadow, referenceNode, Option.some_inj] at carried
      injection carried with _ _ gates
      exact Or.inr gates.symm
    · rintro (none | empty)
      · obtain ⟨skill, listed, refers⟩ := referred
        exact absurd refers (none skill listed)
      · rw [empty]
        exact ⟨name, .permit, .firstMatch, by rw [shadow, referenceNode, same]⟩
  · have none : ∀ skill ∈ directory.skills, ¬skill.Refers agent.label := fun skill listed refers => referred ⟨skill, listed, refers⟩
    have missing : (beforeAgents directory).nodes[subagentId agent.label]? = Option.none := by
      unfold beforeAgents
      exact (lookup_foldl (fun skill listed graph => lookup_parseSkill_other (none skill listed)) _).trans (lookup_settings agent.label directory)
    have found := lookup_agent agents distinct parsed
    rw [missing, Option.none_or] at found
    exact ⟨fun _ => Or.inl none, fun _ => ⟨agent.label, .permit, .firstMatch, found⟩⟩

def reviewer : AgentFile := ⟨some "reviewer", none, [], ["Bash"], [], none, none, none⟩

/-- A directory whose only skill runs in the agent that the only agent file defines. -/
def reviewedDirectory : ClaudeDirectory where
  path := ".claude"
  settings := none
  pluginHooks := none
  skills := [⟨none, some "review", [], some "fork", some "reviewer"⟩]
  agents := [reviewer]

def noContentRegexes : RegexEngine := fun _ => .error "no regular expression"

theorem reviewedDirectory_parses : ∃ graph, parseClaudeDir noContentRegexes reviewedDirectory = .ok graph := by
  refine exists_of_toBool ?_
  decide +kernel

theorem agent_gates_kept_reviewer : ∃ graph, parseClaudeDir noContentRegexes reviewedDirectory = .ok graph ∧
    (CarriesGates graph reviewer.label reviewer.gates ↔ (∀ skill ∈ reviewedDirectory.skills, ¬skill.Refers reviewer.label) ∨
      reviewer.gates = []) := by
  obtain ⟨graph, parsed⟩ := reviewedDirectory_parses
  exact ⟨graph, parsed, @agent_gates_kept noContentRegexes reviewedDirectory graph reviewer [] [] rfl (List.forall_mem_nil _) parsed⟩

theorem agent_gates_lost_reviewer : ¬∀ (regexes : RegexEngine) (directory : ClaudeDirectory) (graph : GovernanceGraph) (agent : AgentFile)
    (before after : List AgentFile), directory.agents = before ++ agent :: after →
    (∀ other ∈ before ++ after, normalizeLabel other.label ≠ normalizeLabel agent.label) →
    parseClaudeDir regexes directory = .ok graph → CarriesGates graph agent.label agent.gates := by
  intro kept
  obtain ⟨graph, parsed⟩ := reviewedDirectory_parses
  obtain ⟨label, default, combination, carried⟩ := kept noContentRegexes reviewedDirectory graph reviewer [] [] rfl (List.forall_mem_nil _) parsed
  have referred : ∃ skill ∈ reviewedDirectory.skills, skill.Refers reviewer.label := by decide +kernel
  obtain ⟨name, -, shadow⟩ := @exists_shadow noContentRegexes reviewedDirectory graph reviewer [] [] rfl (List.forall_mem_nil _) parsed referred
  rw [carried, referenceNode, Option.some_inj] at shadow
  injection shadow with _ _ gates
  exact absurd gates (by decide +kernel)

end

end ClaudeDir

end Legitimacy
