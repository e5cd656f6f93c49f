import ClassAtlas.Catalog.Basic
import ClassAtlas.Dependency.Rules
import ClassAtlas.Digest.Sha256

namespace ClassAtlas

/-- The largest numbers of nodes and edges that a graph may have. -/
structure GraphLimits where
  nodes : Int := 500000
  edges : Int := 5000000
  deriving DecidableEq, Repr

/-- The states of a graph. -/
inductive GraphState where
  | building
  | readonly
  | unknown
  deriving DecidableEq, Repr

namespace GraphState

/-- The name of a state. -/
def label : GraphState → Text
  | .building => "building"
  | .readonly => "readonly"
  | .unknown => "unknown"

/-- The state of a number. -/
def ofNumber : Int → GraphState := numbered [.building, .readonly] .unknown

end GraphState

/-- A class in a graph. Its edges are given by their places among all edges, in the order in which
they came, and by the class at their other end once the graph is frozen. -/
structure ClassNode where
  unit : SourceUnit
  outgoing : List Nat
  incoming : List Nat
  deriving DecidableEq, Repr

/-- An edge from a class to a class it depends on. -/
structure ClassEdge where
  source : Text
  target : Text
  rules : Rules
  deriving DecidableEq, Repr

/-- A graph of classes. All edges stand in the order in which they came; the nodes and the index
of edges by their ends refer to them by their places in it. -/
structure ClassGraph where
  root : Text
  limits : GraphLimits
  nodes : SortedMap Text ClassNode
  edges : Array ClassEdge
  places : SortedMap (Text × Text) Nat
  named : SortedSet Text
  frozen : Bool
  builtAt : Int

/-- Why a graph refuses a change. -/
inductive GraphError where
  | frozen
  | emptyName
  | duplicate (name : Text)
  | tooManyNodes
  | selfEdge (name : Text)
  | missingSource (name : Text)
  | missingTarget (name : Text)
  | tooManyEdges
  deriving DecidableEq, Repr

/-- The wording of a refused change. -/
def GraphError.message : GraphError → Text
  | .frozen => "graph is frozen and cannot be modified"
  | .emptyName => "invalid node: empty FQN"
  | .duplicate name => "duplicate node ID: " ++ name
  | .tooManyNodes => "maximum node count exceeded"
  | .selfEdge name => "self edge: " ++ name
  | .missingSource name => "node not found: source " ++ name
  | .missingTarget name => "node not found: target " ++ name
  | .tooManyEdges => "maximum edge count exceeded"

namespace ClassGraph

/-- A graph without nodes. -/
def new (root : Text) (limits : GraphLimits) : ClassGraph :=
  ⟨root, limits, SortedMap.empty, #[], SortedMap.empty, SortedMap.empty, false, 0⟩

/-- The number of nodes. -/
def nodeCount (g : ClassGraph) : Nat := g.nodes.size

/-- The number of edges. -/
def edgeCount (g : ClassGraph) : Nat := g.edges.size

/-- Adds a class. -/
def addNode (g : ClassGraph) (u : SourceUnit) : Except GraphError ClassGraph :=
  if g.frozen then .error .frozen
  else if u.name.isEmpty then .error .emptyName
  else if g.nodes.contains u.name then .error (.duplicate u.name)
  else if g.limits.nodes ≤ g.nodeCount then .error .tooManyNodes
  else .ok { g with nodes := g.nodes.insert u.name ⟨u, [], []⟩ }

/-- Names a module, which then belongs to the graph even without classes. The empty name is
passed over. -/
def addModule (g : ClassGraph) (name : Text) : Except GraphError ClassGraph :=
  if g.frozen then .error .frozen
  else if name.isEmpty then .ok g
  else .ok { g with named := SortedSet.add g.named name }

/-- Puts a new edge behind the others, into the index and into the nodes at both its ends. -/
def link (g : ClassGraph) (source target : Text) (rules : Rules) : ClassGraph :=
  let place := g.edges.size
  let withOut := g.nodes.modify source fun n => { n with outgoing := n.outgoing ++ [place] }
  let withBoth := withOut.modify target fun n => { n with incoming := n.incoming ++ [place] }
  { g with
    nodes := withBoth
    edges := g.edges.push ⟨source, target, rules⟩
    places := g.places.insert (source, target) place }

/-- Adds rules to the edge at a place. -/
def addRules (g : ClassGraph) (place : Nat) (rules : Rules) : ClassGraph :=
  { g with edges := g.edges.modify place fun e => { e with rules := e.rules.union rules } }

/-- Adds an edge; an edge that is already there takes on the rules as well. -/
def addEdge (g : ClassGraph) (source target : Text) (rules : Rules) : Except GraphError ClassGraph :=
  if g.frozen then .error .frozen
  else if source == target then .error (.selfEdge source)
  else if !g.nodes.contains source then .error (.missingSource source)
  else if !g.nodes.contains target then .error (.missingTarget target)
  else match g.places.find? (source, target) with
    | some place => .ok (g.addRules place rules)
    | none =>
      if g.limits.edges ≤ g.edgeCount then .error .tooManyEdges
      else .ok (g.link source target rules)

/-- The source of the edge at a place. -/
def sourceAt (g : ClassGraph) (place : Nat) : Text := (g.edges[place]?.map (·.source)).getD []

/-- The target of the edge at a place. -/
def targetAt (g : ClassGraph) (place : Nat) : Text := (g.edges[place]?.map (·.target)).getD []

/-- Ends the construction of a graph at a time: the edges of a node are sorted by their other end. -/
def freeze (g : ClassGraph) (now : Int) : ClassGraph :=
  { g with
    nodes := g.nodes.map fun _ n =>
      { n with outgoing := sortBy g.targetAt n.outgoing, incoming := sortBy g.sourceAt n.incoming }
    frozen := true
    builtAt := now }

/-- The node of a class. -/
def node? (g : ClassGraph) (name : Text) : Option ClassNode := g.nodes.find? name

/-- All nodes by name. -/
def nodeList (g : ClassGraph) : List ClassNode := g.nodes.values

/-- All edges, by their source and then by their target. -/
def edgeList (g : ClassGraph) : List ClassEdge := sortBy (fun e => (e.source, e.target)) g.edges.toList

/-- There is an edge between two classes. -/
def hasEdge (g : ClassGraph) (source target : Text) : Bool := g.places.contains (source, target)

/-- The edge between two classes. -/
def edge? (g : ClassGraph) (source target : Text) : Option ClassEdge :=
  (g.places.find? (source, target)).bind (g.edges[·]?)

/-- The edges that leave a node, in its own order. -/
def edgesOut (g : ClassGraph) (n : ClassNode) : List ClassEdge := n.outgoing.filterMap (g.edges[·]?)

/-- The edges that reach a node, in its own order. -/
def edgesIn (g : ClassGraph) (n : ClassNode) : List ClassEdge := n.incoming.filterMap (g.edges[·]?)

/-- The classes that a class depends on, by name; none for an unknown class. -/
def dependencies? (g : ClassGraph) (name : Text) : Option (List Text) :=
  (g.node? name).map fun n => sortBy id ((g.edgesOut n).map (·.target))

/-- The classes that depend on a class, by name; none for an unknown class. -/
def dependents? (g : ClassGraph) (name : Text) : Option (List Text) :=
  (g.node? name).map fun n => sortBy id ((g.edgesIn n).map (·.source))

/-- The modules: those named and those of the classes, by name. -/
def modules (g : ClassGraph) : List Text :=
  ((g.nodeList.map (·.unit.module)).filter (!·.isEmpty)).foldl SortedSet.add g.named |>.keys

/-- The classes of a module by name. -/
def classesIn (g : ClassGraph) (module : Text) : List Text :=
  (g.nodeList.filter (·.unit.module == module)).map (·.unit.name)

/-- The module of a class; empty for an unknown class. -/
def moduleOf (g : ClassGraph) (name : Text) : Text :=
  match g.node? name with
  | none => []
  | some n => n.unit.module

/-- The line of a module in the text of a structure. -/
def moduleLine (m : Text) : Text := "m|" ++ m ++ "\n"

/-- The line of a class in the text of a structure. -/
def nodeLine (n : ClassNode) : Text := "n|" ++ n.unit.name ++ "|" ++ n.unit.module ++ "\n"

/-- The line of an edge in the text of a structure. -/
def edgeLine (e : ClassEdge) : Text := "e|" ++ e.source ++ "|" ++ e.target ++ "\n"

/-- The text that identifies the structure of a graph: its modules, its classes with their
modules, and its edges. -/
def structureText (g : ClassGraph) : Text :=
  g.modules.flatMap moduleLine ++ g.nodeList.flatMap nodeLine ++ g.edgeList.flatMap edgeLine

/-- The digest of the structure. -/
def hash (g : ClassGraph) : Text := Sha256.hex g.structureText

/-- The state of a graph in words. -/
def state (g : ClassGraph) : Text := (if g.frozen then GraphState.readonly else .building).label

end ClassGraph

end ClassAtlas
