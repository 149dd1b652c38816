import PackageCycles.Json
import PackageCycles.View.Basic

/-!
# Drawings

A selection is drawn as plain text, as a Graphviz document or as elements for Cytoscape. What lies
on one of the given cycles is marked: a node if it is a package of a cycle, an edge if it has the
identifier `source->target` of a step of a cycle.
-/

namespace PackageCycles

/-- The identifier of an edge in a drawing. -/
def Edge.id (e : Edge) : Text := e.source ++ "->" ++ e.target

/-- What is marked as lying on a cycle. -/
structure Highlight where
  /-- The packages. -/
  nodes : List Package
  /-- The identifiers of the edges. -/
  edges : List Text
  deriving DecidableEq

namespace Highlight

/-- The packages and steps of the given cycles. -/
def ofCycles (cycles : List Cycle) : Highlight :=
  { nodes := cycles.flatMap List.dropLast
    edges := cycles.flatMap fun c => c.steps.map Edge.id }

/-- The node is marked. -/
def hasNode (h : Highlight) (p : Package) : Bool := h.nodes.contains p

/-- The edge is marked. -/
def hasEdge (h : Highlight) (e : Edge) : Bool := h.edges.contains e.id

end Highlight

namespace Selection

/-- One line for each edge, marked if it lies on a cycle, then one for each node without an
edge. -/
def toText (s : Selection) (h : Highlight) : Text :=
  let edgeLine := fun (e : Edge) =>
    e.source ++ " -> " ++ e.target ++ (if h.hasEdge e then " [cycle]\n" else "\n" : Text)
  let linked := fun (p : Package) => s.edges.any fun (e, _) => e.source = p || e.target = p
  (s.edges.flatMap fun (e, _) => edgeLine e) ++
    (s.nodes.flatMap fun (p, _) => if linked p then [] else p ++ ("\n" : Text))

/-- The attributes of a node or an edge in a Graphviz document. -/
def dotAttributes (attributes : List Text) : Text :=
  if attributes.isEmpty then ";\n" else " [" ++ Text.join ", " attributes ++ "];\n"

/-- The Graphviz document. Cycles are red, the focus is bold and what is more than one hop away
from it is dashed. -/
def toDot (s : Selection) (h : Highlight) : Text :=
  let node := fun (p : Package) (role : NodeRole) =>
    "  " ++ p.quoted ++ dotAttributes
      ((if role = .current then ["style=bold"] else [] : List Text) ++
        (if h.hasNode p then ["color=red"] else [] : List Text))
  let edge := fun (e : Edge) (role : EdgeRole) =>
    "  " ++ e.source.quoted ++ " -> " ++ e.target.quoted ++ dotAttributes
      ((if role = .transitive then ["style=dashed"] else [] : List Text) ++
        (if h.hasEdge e then ["color=red"] else [] : List Text))
  "digraph packages \x7b\n  rankdir=LR;\n  node [shape=box];\n" ++
    (s.nodes.flatMap fun (p, role) => node p role) ++
    (s.edges.flatMap fun (e, role) => edge e role) ++
    "\x7d\n"

end Selection

namespace Cytoscape

/-- A node element. -/
structure Node where
  /-- The identifier, which is also the label. -/
  id : Package
  /-- The part it plays. -/
  role : NodeRole
  /-- It is a package of a cycle. -/
  inCycle : Bool
  deriving DecidableEq

/-- An edge element. -/
structure Link where
  /-- The edge. -/
  edge : Edge
  /-- The part it plays. -/
  role : EdgeRole
  /-- It is a step of a cycle. -/
  inCycle : Bool
  deriving DecidableEq

/-- The elements of a drawing. -/
structure Elements where
  /-- The nodes. -/
  nodes : List Node
  /-- The edges. -/
  edges : List Link
  deriving DecidableEq

/-- The elements that draw a selection. -/
def ofSelection (s : Selection) (h : Highlight) : Elements :=
  { nodes := s.nodes.map fun (p, role) => ⟨p, role, h.hasNode p⟩
    edges := s.edges.map fun (e, role) => ⟨e, role, h.hasEdge e⟩ }

/-- The member that marks an element on a cycle; the others do not have it. -/
def cycleMember (key : Text) (inCycle : Bool) : List (Text × Json) :=
  if inCycle then [(key, .bool true)] else []

/-- A node element as a document. -/
def Node.toJson (n : Node) : Json :=
  let data : List (Text × Json) :=
    [("id", .text n.id), ("name", .text n.id), ("type", .text n.role.name)]
  .object [("data", .object (data ++ cycleMember "in_cycle" n.inCycle))]

/-- An edge element as a document. -/
def Link.toJson (l : Link) : Json :=
  let data : List (Text × Json) :=
    [("id", .text l.edge.id), ("source", .text l.edge.source), ("target", .text l.edge.target),
      ("type", .text l.role.name)]
  .object [("data", .object (data ++ cycleMember "cycle" l.inCycle))]

/-- The elements as a document. -/
def Elements.toJson (e : Elements) : Json :=
  .object [("nodes", .list (e.nodes.map Node.toJson)), ("edges", .list (e.edges.map Link.toJson))]

end Cytoscape

/-- The formats of a drawing. -/
inductive DrawingFormat where
  | text
  | dot
  | cytoscape
  deriving DecidableEq

/-- The format of the given name. -/
def DrawingFormat.ofName? (name : Text) : Option DrawingFormat :=
  if name = "text" then some .text
  else if name = "dot" then some .dot
  else if name = "cytoscape" then some .cytoscape
  else none

/-- The selected part of a graph in the given format. -/
def View.draw (v : View) (g : Graph) (cycles : List Cycle) : DrawingFormat → Text
  | .text => (v.select g).toText (.ofCycles cycles)
  | .dot => (v.select g).toDot (.ofCycles cycles)
  | .cytoscape => (Cytoscape.ofSelection (v.select g) (.ofCycles cycles)).toJson.pretty

end PackageCycles
