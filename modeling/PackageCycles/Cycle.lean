import PackageCycles.Graph.Basic

/-!
# Cycles

A cycle is a closed walk: its packages in the order of the walk, the first one repeated at the end.
The same walk can be written from each of its packages on. `Cycle.normalize` picks the one that
starts at the least package, and `Cycle.key` turns it into one text, by which repeated reports of a
cycle are recognised.
-/

namespace PackageCycles

/-- The packages of a closed walk, the first one repeated at the end. -/
abbrev Cycle := List Package

namespace Cycle

/-- The steps of the walk: each package but the last with the one behind it. -/
def steps (c : Cycle) : List Edge := List.zipWith Edge.mk c c.tail

/-- Each step of the walk is an edge of the graph. -/
def IsWalk (g : Graph) (c : Cycle) : Prop := ∀ e ∈ c.steps, g.hasEdge e.source e.target

/-- The walk returns to its first package. -/
def IsClosed (c : Cycle) : Prop := c.head? = c.getLast?

/-- A closed walk of at least one edge that visits no package twice before it returns. -/
structure IsSimple (g : Graph) (c : Cycle) : Prop where
  /-- There is at least one edge. -/
  two_le : 2 ≤ c.length
  /-- The steps are edges. -/
  walk : IsWalk g c
  /-- The last package is the first one. -/
  closed : IsClosed c
  /-- No package is visited twice. -/
  nodup : c.dropLast.Nodup

/-- The packages joined by arrows. -/
def render (c : Cycle) : Text := Text.join " → " c

/-- The number of packages that the walk visits. -/
def size (c : Cycle) : Nat := if c.length < 2 then c.length else c.length - 1

/-- The place and the name of the first of the least packages of a non-empty list. -/
def least : Package → List Package → Nat × Package
  | p, [] => (0, p)
  | p, q :: rest =>
    let (i, m) := least q rest
    if m < p then (i + 1, m) else (0, p)

/-- The same walk started at `start`, the place of a package before the last. -/
def rotate (c : Cycle) (start : Nat) : Cycle :=
  let body := c.dropLast
  body.drop start ++ body.take start ++ (body.drop start).take 1

/-- The same walk started at its least package. -/
def normalize (c : Cycle) : Cycle :=
  match c.dropLast with
  | [] => c
  | p :: rest => c.rotate (least p rest).1

/-- The normal form as one text, with a NUL between packages. -/
def key (c : Cycle) : Text := Text.join [0] c.normalize

/-- The one cycle is the other started at another of its packages. -/
def IsRotation (c d : Cycle) : Prop := ∃ start < c.dropLast.length, d = c.rotate start

end Cycle

end PackageCycles
