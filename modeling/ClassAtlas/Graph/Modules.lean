import ClassAtlas.Graph.Basic

namespace ClassAtlas

/-- A class and a class that it depends on. -/
structure ClassPair where
  source : Text
  target : Text
  deriving DecidableEq, Repr

/-- An edge between two modules with its evidence. -/
structure ModuleEdge where
  source : Text
  target : Text
  evidence : List ClassPair
  deriving DecidableEq, Repr

/-- The two modules of an edge. -/
def ModuleEdge.ends (e : ModuleEdge) : Text × Text := (e.source, e.target)

/-- A graph of modules. Every edge stands once in `store`, in the order in which its first evidence
came. The list of all edges, the index by their ends and the edges at a module refer to it by
place, so more evidence for an edge shows in all of them. -/
structure ModuleGraph where
  modules : List Text
  store : Array ModuleEdge
  order : List Nat
  index : SortedMap (Text × Text) Nat
  outgoing : SortedMap Text (List Nat)
  incoming : SortedMap Text (List Nat)

namespace ModuleGraph

/-- Modules without edges. -/
def blank (modules : List Text) : ModuleGraph :=
  ⟨modules, #[], [], SortedMap.empty, SortedMap.empty, SortedMap.empty⟩

/-- The places listed at a module. -/
def placesAt (lists : SortedMap Text (List Nat)) (module : Text) : List Nat :=
  (lists.find? module).getD []

/-- Puts a place behind those listed at a module. -/
def enlist (lists : SortedMap Text (List Nat)) (module : Text) (place : Nat) :
    SortedMap Text (List Nat) :=
  lists.insert module (placesAt lists module ++ [place])

/-- Puts a new edge behind the others, into the index and into the lists of both its modules. -/
def connect (m : ModuleGraph) (e : ModuleEdge) : ModuleGraph :=
  let place := m.store.size
  { m with
    store := m.store.push e
    order := m.order ++ [place]
    index := m.index.insert e.ends place
    outgoing := enlist m.outgoing e.source place
    incoming := enlist m.incoming e.target place }

/-- Adds evidence to the edge at a place. -/
def support (m : ModuleGraph) (place : Nat) (p : ClassPair) : ModuleGraph :=
  { m with store := m.store.modify place fun e => { e with evidence := e.evidence ++ [p] } }

/-- Takes a class edge into account: it is evidence if it joins two modules. -/
def addEvidence (g : ClassGraph) (m : ModuleGraph) (e : ClassEdge) : ModuleGraph :=
  let source := g.moduleOf e.source
  let target := g.moduleOf e.target
  if source == target then m
  else match m.index.find? (source, target) with
    | some place => m.support place ⟨e.source, e.target⟩
    | none => m.connect ⟨source, target, [⟨e.source, e.target⟩]⟩

/-- The modules of the edge at a place. -/
def endsAt (m : ModuleGraph) (place : Nat) : Text × Text := (m.store[place]?.map (·.ends)).getD ([], [])

/-- Sorts the list of all edges and the lists at the modules. -/
def sorted (m : ModuleGraph) : ModuleGraph :=
  { m with
    order := sortBy m.endsAt m.order
    outgoing := m.outgoing.map fun _ places => sortBy m.endsAt places
    incoming := m.incoming.map fun _ places => sortBy m.endsAt places }

/-- The modules of a class graph and the edges between them. -/
def project (g : ClassGraph) : ModuleGraph :=
  (g.edgeList.foldl (addEvidence g) (blank g.modules)).sorted

/-- The edges at places. -/
def edgesAt (m : ModuleGraph) (places : List Nat) : List ModuleEdge := places.filterMap (m.store[·]?)

/-- All edges, by their source and then by their target. -/
def edges (m : ModuleGraph) : List ModuleEdge := m.edgesAt m.order

/-- The number of edges. -/
def edgeCount (m : ModuleGraph) : Nat := m.order.length

/-- The module belongs to the graph. -/
def hasModule (m : ModuleGraph) (name : Text) : Bool := hasSorted m.modules.toArray name

/-- The edge between two modules. -/
def edge? (m : ModuleGraph) (source target : Text) : Option ModuleEdge :=
  (m.index.find? (source, target)).bind (m.store[·]?)

/-- The edges that leave a module, by their target. -/
def edgesFrom (m : ModuleGraph) (name : Text) : List ModuleEdge := m.edgesAt (placesAt m.outgoing name)

/-- The edges that reach a module, by their source. -/
def edgesTo (m : ModuleGraph) (name : Text) : List ModuleEdge := m.edgesAt (placesAt m.incoming name)

/-- The modules that a module depends on, by name. -/
def dependencies (m : ModuleGraph) (name : Text) : List Text := (m.edgesFrom name).map (·.target)

/-- The modules that depend on a module, by name. -/
def dependents (m : ModuleGraph) (name : Text) : List Text := (m.edgesTo name).map (·.source)

end ModuleGraph

end ClassAtlas
