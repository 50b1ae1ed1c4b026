import RustyRuntime.State.SuperStepMerge
import RustyRuntime.Journal.Event

/-!
# Nodes and graphs

The node types of `node.rs` and the graph of `graph.rs`. A node is its declared effect and a
function of its context: what middleware, admission or tool guards add happens inside that
function. A compiled `Graph` carries what `compile` has validated, so a graph that fails the
validation cannot be built (`GraphBuilder.compile`).

The node map is a hash map in the source; the only place where its order shows is which of
several reserved names an error reports.
-/

namespace RustyRuntime

/-! ## Nodes -/

/-- Dynamic routing and resume directive. -/
structure Command where
  goto : List String := []
  resume : Option Json := none
  deriving DecidableEq

structure NodeOutput where
  updates : Updates := .empty
  command : Option Command := none
  deriving DecidableEq

structure NodeConfig where
  threadId : String
  step : Nat
  resume : Option Json
  extra : Std.ExtTreeMap String Json

structure NodeContext where
  state : State
  config : NodeConfig

structure Node where
  effect : Effect := .pure
  run : NodeContext → Result NodeOutput

/-! ## Edges -/

/-- One dynamic fan-out instruction. -/
structure Send where
  node : String
  state : Json
  deriving DecidableEq

/-- The routing decision of a conditional edge; `finish` is `Route::End`. -/
inductive Route where
  | node (target : String)
  | send (sends : List Send)
  | finish
  deriving DecidableEq

abbrev ConditionalRouter := State → Result Route

inductive Edge where
  | direct (source target : String)
  | conditional (source : String) (router : ConditionalRouter)

namespace Edge

/-- `Edge::from`. -/
def source : Edge → String
  | direct source _ => source
  | conditional source _ => source

def ends? : Edge → Option (String × String)
  | direct source target => some (source, target)
  | conditional _ _ => none

def routed? : Edge → Option String
  | direct _ _ => none
  | conditional source _ => some source

end Edge

/-! ## Validation -/

/-- `END`. -/
def endName : String := "__end__"

/-- The engine's sentinel namespace. -/
def reservedName (name : String) : Bool := name == endName || name.startsWith "__"

structure GraphBuilder where
  nodes : Std.ExtTreeMap String Node := ∅
  edges : List Edge := []
  entryPoint : Option String := none

/-- A compiled graph: nodes, edges and entry point, with what `compile` has checked. -/
structure Graph where
  nodes : Std.ExtTreeMap String Node
  edges : List Edge
  entryPoint : String
  unreserved : ∀ name, name ∈ nodes → reservedName name = false
  entryKnown : entryPoint ∈ nodes
  sourcesKnown : ∀ edge ∈ edges, edge.source ∈ nodes
  targetsKnown : ∀ ends ∈ edges.filterMap Edge.ends?, ends.2 ∈ nodes
  nodupEnds : (edges.filterMap Edge.ends?).Nodup
  nodupRouted : (edges.filterMap Edge.routed?).Nodup
  unmixed : ∀ ends ∈ edges.filterMap Edge.ends?, ends.1 ∉ edges.filterMap Edge.routed?

namespace GraphBuilder

section

variable (b : GraphBuilder)

def addNode (name : String) (node : Node) : GraphBuilder :=
  { b with nodes := b.nodes.insert name node }

def addEdge (source target : String) : GraphBuilder :=
  { b with edges := b.edges ++ [.direct source target] }

def addConditionalEdges (source : String) (router : ConditionalRouter) : GraphBuilder :=
  { b with edges := b.edges ++ [.conditional source router] }

def setEntryPoint (name : String) : GraphBuilder :=
  { b with entryPoint := some name }

/-- The sets of the validation loop: static edges seen, and sources of conditional edges. -/
structure EdgeSets where
  direct : List (String × String) := []
  conditional : List String := []

/-- The body of the validation loop. -/
def checkEdge (seen : EdgeSets) (edge : Edge) : Result EdgeSets :=
  if edge.source ∉ b.nodes then
    .error (.graph s!"edge source `{edge.source}` does not reference a known node")
  else match edge with
    | .direct source target =>
      if target ∉ b.nodes then
        .error (.graph
          s!"edge target `{target}` (from `{source}`) does not reference a known node")
      else if (source, target) ∈ seen.direct then
        .error (.graph (s!"duplicate edge `{source} -> {target}`: the target would be " ++
          "activated twice in one super-step"))
      else .ok { seen with direct := seen.direct ++ [(source, target)] }
    | .conditional source _ =>
      if source ∈ seen.conditional then
        .error (.graph (s!"node `{source}` has multiple conditional edges; only one " ++
          "router per source node is allowed"))
      else .ok { seen with conditional := seen.conditional ++ [source] }

/-- The checks of `compile`, in its order; the result is the entry point. -/
def validate : Result String :=
  if b.nodes.isEmpty then
    .error (.graph "cannot compile an empty graph: register at least one node")
  else match b.nodes.keys.find? reservedName with
    | some name => .error (.graph (s!"node name `{name}` is reserved (`{endName}` and " ++
        "`__`-prefixed names form the engine's sentinel namespace)"))
    | none => match b.entryPoint with
      | none => .error (.graph "no entry point set: call set_entry_point()")
      | some entry =>
        if entry ∉ b.nodes then
          .error (.graph s!"entry point `{entry}` does not reference a known node")
        else match b.edges.foldlM b.checkEdge {} with
          | .error e => .error e
          | .ok seen => match seen.direct.find? (·.1 ∈ seen.conditional) with
            | some ends =>
              .error (.graph (s!"node `{ends.1}` has both static and conditional edges; " ++
                "routing would be ambiguous — use one kind per source node"))
            | none => .ok entry

end

variable {b : GraphBuilder} {seen seen' : EdgeSets} {edge : Edge} {edges : List Edge}

theorem checkEdge_eq_ok (h : b.checkEdge seen edge = .ok seen') :
    edge.source ∈ b.nodes ∧ (∀ ends ∈ edge.ends?, ends.2 ∈ b.nodes ∧ ends ∉ seen.direct) ∧
      (∀ source ∈ edge.routed?, source ∉ seen.conditional) ∧
      seen' = ⟨seen.direct ++ edge.ends?.toList, seen.conditional ++ edge.routed?.toList⟩ := by
  revert h
  fun_cases checkEdge b seen edge with
  | case4 | case6 =>
    rintro ⟨⟩
    simp_all [Edge.ends?, Edge.routed?, Edge.source]
  | _ => exact nofun

/-- What the validation loop establishes of the edges it has passed. -/
structure EdgesChecked (b : GraphBuilder) (edges : List Edge) (seen : EdgeSets) : Prop where
  direct : seen.direct = edges.filterMap Edge.ends?
  conditional : seen.conditional = edges.filterMap Edge.routed?
  sources : ∀ edge ∈ edges, edge.source ∈ b.nodes
  targets : ∀ ends ∈ edges.filterMap Edge.ends?, ends.2 ∈ b.nodes
  nodupDirect : (edges.filterMap Edge.ends?).Nodup
  nodupConditional : (edges.filterMap Edge.routed?).Nodup

theorem edgesChecked_append (h : EdgesChecked b edges seen)
    (hEdge : b.checkEdge seen edge = .ok seen') : EdgesChecked b (edges ++ [edge]) seen' := by
  obtain ⟨hSource, hEnds, hRouted, rfl⟩ := checkEdge_eq_ok hEdge
  obtain ⟨hDirect, hConditional, hSources, hTargets, hNodup, hNodup'⟩ := h
  have hSplit : ∀ {α : Type} (f : Edge → Option α),
      (edges ++ [edge]).filterMap f = edges.filterMap f ++ (f edge).toList := by
    intro α f
    cases hF : f edge <;> simp [hF]
  refine ⟨by rw [hSplit, hDirect], by rw [hSplit, hConditional], ?_, ?_, ?_, ?_⟩
  · simpa [or_imp, forall_and, hSource] using hSources
  · rw [hSplit]
    intro ends hMem
    rcases List.mem_append.mp hMem with hOld | hNew
    · exact hTargets ends hOld
    · exact (hEnds ends (Option.mem_toList.mp hNew)).1
  · rw [hSplit]
    cases hE : edge.ends? with
    | none => simpa using hNodup
    | some ends =>
      have hFresh := (hEnds ends hE).2
      rw [hDirect] at hFresh
      exact List.nodup_append_comm.mpr (List.nodup_cons.mpr ⟨hFresh, hNodup⟩)
  · rw [hSplit]
    cases hR : edge.routed? with
    | none => simpa using hNodup'
    | some source =>
      have hFresh := hRouted source hR
      rw [hConditional] at hFresh
      exact List.nodup_append_comm.mpr (List.nodup_cons.mpr ⟨hFresh, hNodup'⟩)

theorem edgesChecked_foldlM (rest : List Edge) (h : EdgesChecked b edges seen)
    (hRest : rest.foldlM b.checkEdge seen = .ok seen') : EdgesChecked b (edges ++ rest) seen' := by
  induction rest generalizing edges seen with
  | nil =>
    cases hRest
    simpa using h
  | cons edge rest ih =>
    rw [List.foldlM_cons] at hRest
    cases hEdge : b.checkEdge seen edge with
    | error e =>
      rw [hEdge] at hRest
      cases hRest
    | ok next =>
      rw [hEdge] at hRest
      simpa using ih (edgesChecked_append h hEdge) hRest

theorem validate_eq_ok {entry : String} (h : b.validate = .ok entry) :
    (∀ name, name ∈ b.nodes → reservedName name = false) ∧ entry ∈ b.nodes ∧
      ∃ seen, EdgesChecked b b.edges seen ∧
        ∀ ends ∈ seen.direct, ends.1 ∉ seen.conditional := by
  revert h
  fun_cases validate b with
  | case7 _ hNames entry _ hEntry seen hEdges hMixed =>
    rintro ⟨⟩
    refine ⟨fun name hName => ?_, by simpa using hEntry, seen, ?_, ?_⟩
    · rw [List.find?_eq_none] at hNames
      simpa using hNames name (Std.ExtTreeMap.mem_keys.mpr hName)
    · have hNone : EdgesChecked b [] {} := ⟨rfl, rfl, by simp, by simp, by simp, by simp⟩
      exact edgesChecked_foldlM b.edges hNone hEdges
    · simpa using hMixed
  | _ => exact nofun

def freeze (b : GraphBuilder) (entry : String) (h : b.validate = .ok entry) : Graph where
  nodes := b.nodes
  edges := b.edges
  entryPoint := entry
  unreserved := (validate_eq_ok h).1
  entryKnown := (validate_eq_ok h).2.1
  sourcesKnown := (validate_eq_ok h).2.2.elim fun _ hSeen => hSeen.1.sources
  targetsKnown := (validate_eq_ok h).2.2.elim fun _ hSeen => hSeen.1.targets
  nodupEnds := (validate_eq_ok h).2.2.elim fun _ hSeen => hSeen.1.nodupDirect
  nodupRouted := (validate_eq_ok h).2.2.elim fun _ hSeen => hSeen.1.nodupConditional
  unmixed := (validate_eq_ok h).2.2.elim fun _ hSeen =>
    hSeen.1.direct ▸ hSeen.1.conditional ▸ hSeen.2

def compile (b : GraphBuilder) : Result Graph :=
  match h : b.validate with
  | .error e => .error e
  | .ok entry => .ok (b.freeze entry h)

end GraphBuilder

/-! ## Compiled graphs -/

namespace Graph

variable (graph : Graph)

def node (name : String) : Option Node := graph.nodes[name]?

def hasNode (name : String) : Bool := graph.nodes.contains name

def outgoingEdges (name : String) : List Edge :=
  graph.edges.filter (·.source = name)

/-- The text that `Graph::topology_hash` hashes. -/
def topologyText : String :=
  let lines := graph.nodes.keys.map (fun name => s!"node:{name}") ++
    graph.edges.map (fun
      | .direct source target => s!"edge:{source}>{target}"
      | .conditional source _ => s!"edge:{source}>?") ++
    [s!"entry:{graph.entryPoint}"]
  "\n".intercalate (Library.sortByKey id lines)

def topologyHash (codec : Codec) (graph : Graph) : String :=
  codec.sha256Hex (Json.utf8 graph.topologyText)

end Graph

end RustyRuntime
