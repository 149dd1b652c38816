import PackageCycles.Detector

/-!
# Views of a graph

A view says which part of a graph is drawn: all of it, or one package in focus with what it depends
on, what depends on it, or both. `View.select` lists the nodes and edges to draw, each with the part
it plays. Around a focus the dependencies are followed depth first; a package is entered when it is
met for the first time, and its edges are listed after those of the packages entered from it.
-/

namespace PackageCycles

/-- Which side of the package in focus is drawn. -/
inductive Direction where
  /-- What it depends on. -/
  | dependencies
  /-- What depends on it. -/
  | dependents
  /-- Both. -/
  | both
  /-- A name without a meaning of its own; neither side is drawn. -/
  | unnamed (name : Text)
  deriving DecidableEq

/-- A name that is no direction. -/
structure Direction.Unknown where
  /-- The name. -/
  name : Text
  deriving DecidableEq

namespace Direction

/-- The name of a direction. -/
def name : Direction → Text
  | .dependencies => "dependencies"
  | .dependents => "dependents"
  | .both => "both"
  | .unnamed name => name

/-- The direction of any name; the empty name stands for the dependencies. -/
def ofName (name : Text) : Direction :=
  if name = "" ∨ name = "dependencies" then .dependencies
  else if name = "dependents" then .dependents
  else if name = "both" then .both
  else .unnamed name

/-- The direction of a name that has one. -/
def parse (name : Text) : Except Unknown Direction :=
  match ofName name with
  | .unnamed name => .error ⟨name⟩
  | direction => .ok direction

/-- What is said of a name that is no direction. -/
def Unknown.message (e : Unknown) : Text :=
  ("unknown direction " : Text) ++ e.name.quoted ++ " (must be dependencies, dependents or both)"

/-- The dependencies are drawn. -/
def showsDependencies (d : Direction) : Bool := d = .dependencies || d = .both

/-- The dependents are drawn. -/
def showsDependents (d : Direction) : Bool := d = .dependents || d = .both

end Direction

/-- The part of a graph that is drawn. -/
structure View where
  /-- The package in focus; the empty name draws the whole graph. -/
  focus : Package
  /-- Which side of the focus is drawn. -/
  direction : Direction
  /-- Dependencies of dependencies are followed. -/
  transitive : Bool
  /-- How many hops are followed at most; without a limit if not positive. -/
  maxDepth : Int
  deriving DecidableEq

/-- The part a node plays in a drawing. -/
inductive NodeRole where
  | package
  | current
  | dependency
  | dependent
  deriving DecidableEq

/-- The part an edge plays in a drawing. -/
inductive EdgeRole where
  | direct
  | transitive
  | dependsOn
  deriving DecidableEq

/-- The name of a node's part. -/
def NodeRole.name : NodeRole → Text
  | .package => "package"
  | .current => "current"
  | .dependency => "dependency"
  | .dependent => "dependent"

/-- The name of an edge's part. -/
def EdgeRole.name : EdgeRole → Text
  | .direct => "direct"
  | .transitive => "transitive"
  | .dependsOn => "depends-on"

/-- The nodes and edges of a drawing, in the order in which they are drawn. -/
structure Selection where
  /-- The packages with their parts. -/
  nodes : List (Package × NodeRole)
  /-- The edges with their parts. -/
  edges : List (Edge × EdgeRole)
  deriving DecidableEq

namespace Selection

/-- The package is drawn. -/
def hasNode (s : Selection) (p : Package) : Bool := s.nodes.any (·.1 = p)

/-- The drawing with one more node. -/
def addNode (s : Selection) (p : Package) (role : NodeRole) : Selection :=
  { s with nodes := s.nodes ++ [(p, role)] }

/-- The drawing with one more edge. -/
def addEdge (s : Selection) (e : Edge) (role : EdgeRole) : Selection :=
  { s with edges := s.edges ++ [(e, role)] }

/-- Adds the dependencies of `p` and, for those met for the first time, their own, up to `hops`
hops away. The edges of `p` itself play the part `role`. -/
def addDependencies (s : Selection) (g : Graph) (hops : Nat) (role : EdgeRole) (p : Package) :
    Selection :=
  match hops with
  | 0 => s
  | hops + 1 =>
    (g.dependencies p).foldl
      (fun s q =>
        let entered :=
          if s.hasNode q then s
          else (s.addNode q .dependency).addDependencies g hops .transitive q
        entered.addEdge ⟨p, q⟩ role)
      s

/-- Adds the packages that depend on `p`. -/
def addDependents (s : Selection) (g : Graph) (p : Package) : Selection :=
  (g.dependents p).foldl
    (fun s q =>
      let entered := if s.hasNode q then s else s.addNode q .dependent
      entered.addEdge ⟨q, p⟩ .dependsOn)
    s

end Selection

namespace View

/-- The view of the whole graph. -/
def whole : View := ⟨"", .dependencies, false, 0⟩

/-- How many hops the view follows. Without a limit that is the number of nodes: a package is
entered only once, so no dependency is entered more hops away. -/
def hops (v : View) (g : Graph) : Nat :=
  if v.transitive then if 0 < v.maxDepth then v.maxDepth.toNat else g.nodes.length else 1

/-- The nodes and edges that the view draws. -/
def select (v : View) (g : Graph) : Selection :=
  if v.focus = "" then
    { nodes := g.nodes.map fun p => (p, .package)
      edges := g.edges.map fun e => (e, .direct) }
  else
    let focused : Selection := ⟨[(v.focus, .current)], []⟩
    let below :=
      if v.direction.showsDependencies then
        focused.addDependencies g (v.hops g) .direct v.focus
      else focused
    if v.direction.showsDependents then below.addDependents g v.focus else below

end View

end PackageCycles
