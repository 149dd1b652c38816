import PackageCycles.Search.Basic
import PackageCycles.Text.Quoted

/-!
# Cycle detection

A detector searches a graph from each package that depends on something, in byte order. The shared
traversal is one search over all roots, so a package finished below one root is passed over below
the next. The per-root traversal starts afresh at each root and reports each cycle once, whatever
package it was found from.
-/

namespace PackageCycles

/-- How the roots of a detection share what the search has found out. -/
inductive Traversal where
  /-- One search over all roots. -/
  | shared
  /-- A search of its own for each root. -/
  | perRoot
  /-- A name without a meaning of its own; it traverses as `shared`. -/
  | unnamed (name : Text)
  deriving DecidableEq

/-- A name that is no traversal. -/
structure Traversal.Unknown where
  /-- The name. -/
  name : Text
  deriving DecidableEq

namespace Traversal

/-- The name of a traversal. -/
def name : Traversal → Text
  | .shared => "shared"
  | .perRoot => "per-root"
  | .unnamed name => name

/-- The traversal of any name; the empty name stands for the shared one. -/
def ofName (name : Text) : Traversal :=
  if name = "" ∨ name = "shared" then .shared
  else if name = "per-root" then .perRoot
  else .unnamed name

/-- The traversal of a name that has one. -/
def parse (name : Text) : Except Unknown Traversal :=
  match ofName name with
  | .unnamed name => .error ⟨name⟩
  | traversal => .ok traversal

/-- What is said of a name that is no traversal. -/
def Unknown.message (e : Unknown) : Text :=
  ("unknown traversal mode " : Text) ++ e.name.quoted ++ " (must be shared or per-root)"

end Traversal

/-- A search bound and a traversal. -/
structure Detector where
  /-- The greatest number of packages on a path, hence on a reported cycle. -/
  maxDepth : Nat
  /-- The traversal. -/
  traversal : Traversal
  deriving DecidableEq

namespace Detector

/-- The bound that holds when none is configured. -/
def defaultMaxDepth : Nat := 10

/-- The detector with the given bound; bounds below 1 act as 1. -/
def new (maxDepth : Int) (traversal : Traversal) : Detector := ⟨max 1 maxDepth.toNat, traversal⟩

/-- The search over all roots, in which finished packages stay finished. -/
def sharedSearch (d : Detector) (g : Graph) : Search :=
  g.packages.foldl
    (fun s root => if s.status root = .finished then s else s.run g d.maxDepth root) .start

/-- The cycles found below one root by a search of its own. -/
def rootCycles (d : Detector) (g : Graph) (root : Package) : List Cycle :=
  (Search.start.run g d.maxDepth root).cycles

/-- The cycles whose key is not among `seen` and not that of an earlier one. -/
def distinct : (seen : List Text) → List Cycle → List Cycle
  | _, [] => []
  | seen, c :: rest =>
    if seen.contains c.key then distinct seen rest else c :: distinct (c.key :: seen) rest

/-- The cycles that the detector reports, in the order in which they are found. -/
def detect (d : Detector) (g : Graph) : List Cycle :=
  match d.traversal with
  | .perRoot => distinct [] (g.packages.flatMap (d.rootCycles g))
  | _ => (d.sharedSearch g).cycles

end Detector

end PackageCycles
