import PackageCycles.Ordered
import PackageCycles.Text.Basic

/-!
# Package dependency graphs

A dependency graph is a finite set of edges between named packages. It is kept as a strictly
increasing list of edges, so two graphs with the same edges are the same value, and the packages,
dependencies and dependents that are read off it come in byte order. The empty name names no
package: an edge from or to it is never added.
-/

namespace PackageCycles

/-- A package, by its name. -/
abbrev Package := Text

/-- `source` depends directly on `target`. -/
structure Edge where
  /-- The depending package. -/
  source : Package
  /-- The package depended on. -/
  target : Package
  deriving DecidableEq

/-- Edges are ordered by their source, and those with one source by their target. -/
instance : LT Edge :=
  ⟨fun a b => a.source < b.source ∨ (a.source = b.source ∧ a.target < b.target)⟩

instance : DecidableLT Edge := fun a b =>
  inferInstanceAs (Decidable (a.source < b.source ∨ (a.source = b.source ∧ a.target < b.target)))

instance : Trans (· < · : Edge → Edge → Prop) (· < ·) (· < ·) where
  trans {a b c} := by
    rintro (hab | ⟨hab, hab'⟩) (hbc | ⟨hbc, hbc'⟩)
    · exact .inl (List.lt_trans hab hbc)
    · exact .inl (hbc ▸ hab)
    · exact .inl (hab ▸ hbc)
    · exact .inr ⟨hab.trans hbc, List.lt_trans hab' hbc'⟩

/-- Both ends have a name. -/
def Edge.IsNamed (e : Edge) : Prop := e.source ≠ [] ∧ e.target ≠ []

instance (e : Edge) : Decidable e.IsNamed := inferInstanceAs (Decidable (_ ∧ _))

/-- A package dependency graph. -/
structure Graph where
  /-- The edges in increasing order. -/
  edges : List Edge
  /-- The order is strict, so no edge is listed twice. -/
  ordered : Ordered.IsOrdered edges
  /-- The empty name is no end of an edge. -/
  named : ∀ e ∈ edges, e.IsNamed

/-- The packages that the files of one package import. -/
structure FileDependencies where
  /-- The package of the file. -/
  package : Package
  /-- The packages it imports. -/
  imports : List Package
  deriving DecidableEq

namespace Graph

/-- The graph without edges. -/
def empty : Graph := ⟨[], .nil, by simp⟩

/-- The graph with one more edge; an edge without two names is left out. -/
def insert (g : Graph) (e : Edge) : Graph :=
  if h : e.IsNamed then
    { edges := Ordered.insert e g.edges
      ordered := g.ordered.insert e
      named := fun f hf => (Ordered.mem_of_mem_insert hf).elim (· ▸ h) (g.named f) }
  else g

/-- The graph with an edge from `package` to each of `dependencies`. -/
def addEdges (g : Graph) (package : Package) (dependencies : List Package) : Graph :=
  dependencies.foldl (fun g dependency => g.insert ⟨package, dependency⟩) g

/-- The graph of a list of files: a package depends on what any of its files imports. -/
def build (files : List FileDependencies) : Graph :=
  files.foldl (fun g file => g.addEdges file.package file.imports) empty

/-- The packages that depend on something, in increasing order. -/
def packages (g : Graph) : List Package := Ordered.ofList (g.edges.map Edge.source)

/-- The two ends of each edge, edge by edge. -/
def ends (g : Graph) : List Package := g.edges.flatMap fun e => [e.source, e.target]

/-- The packages at either end of an edge, in increasing order. -/
def nodes (g : Graph) : List Package := Ordered.ofList g.ends

/-- The packages that `package` depends on directly, in increasing order. -/
def dependencies (g : Graph) (package : Package) : List Package :=
  g.edges.filterMap fun e => if e.source = package then some e.target else none

/-- The packages that depend directly on `package`, in increasing order. -/
def dependents (g : Graph) (package : Package) : List Package :=
  g.edges.filterMap fun e => if e.target = package then some e.source else none

/-- `source` depends directly on `target`. -/
def hasEdge (g : Graph) (source target : Package) : Bool := decide (Edge.mk source target ∈ g.edges)

/-- The number of packages that depend on something. -/
def packageCount (g : Graph) : Nat := g.packages.length

/-- The number of edges. -/
def edgeCount (g : Graph) : Nat := g.edges.length

/-- Each package that depends on something with its dependencies, in increasing order. -/
def adjacency (g : Graph) : List (Package × List Package) :=
  g.packages.map fun package => (package, g.dependencies package)

/-- A package has no more dependencies than the graph has edges. -/
theorem length_dependencies_le (g : Graph) (package : Package) :
    (g.dependencies package).length ≤ g.edgeCount :=
  List.length_filterMap_le _ _

/-- The dependencies of a package are the targets of its edges. -/
theorem mem_dependencies {g : Graph} {p q : Package} :
    q ∈ g.dependencies p ↔ Edge.mk p q ∈ g.edges := by
  simp only [dependencies, List.mem_filterMap, Option.ite_none_right_eq_some, Option.some.injEq]
  constructor
  · rintro ⟨⟨s, t⟩, h, rfl, rfl⟩
    exact h
  · exact fun h => ⟨_, h, rfl, rfl⟩

/-- A dependency is an end of an edge. -/
theorem mem_ends_of_mem_dependencies {g : Graph} {p q : Package} (h : q ∈ g.dependencies p) :
    q ∈ g.ends :=
  List.mem_flatMap.2 ⟨_, mem_dependencies.1 h, by simp⟩

/-- A package that is no end of an edge has no dependencies. -/
theorem dependencies_eq_nil {g : Graph} {p : Package} (h : p ∉ g.ends) : g.dependencies p = [] :=
  List.eq_nil_iff_forall_not_mem.2 fun _ hq =>
    h (List.mem_flatMap.2 ⟨_, mem_dependencies.1 hq, by simp⟩)

end Graph

end PackageCycles
