import PackageCycles.Search.Basic

/-!
# The search by recursion

`Findings.explore` states the depth-bounded search by recursion on the length by which the path may
still grow: a package on the path closes the cycle from its place to the end of the path, a finished
one or one beyond the greatest length is passed over, and any other is put on the path while its
dependencies are explored in order.
-/

namespace PackageCycles

/-- What a search has found out: the status of the packages and the cycles. -/
structure Findings where
  /-- The latest status of each package, in front of earlier ones. -/
  marks : List (Package × Status)
  /-- The cycles in the order in which they were closed. -/
  cycles : List Cycle
  deriving DecidableEq

namespace Findings

/-- The status of a package. -/
def status (f : Findings) (p : Package) : Status := (f.marks.lookup p).getD .untouched

/-- The findings with the status of a package changed. -/
def mark (f : Findings) (p : Package) (status : Status) : Findings :=
  { f with marks := (p, status) :: f.marks }

/-- Explores `p` from the end of `path`, which may grow by `room` packages. -/
def explore (g : Graph) : (room : Nat) → (path : List Package) → Findings → Package → Findings
  | room, path, f, p =>
    match f.status p, room with
    | .onPath, _ => { f with cycles := f.cycles ++ [path.dropWhile (· ≠ p) ++ [p]] }
    | .finished, _ => f
    | .untouched, 0 => f
    | .untouched, room + 1 =>
      ((g.dependencies p).foldl (explore g room (path ++ [p])) (f.mark p .onPath)).mark p .finished

end Findings

end PackageCycles
