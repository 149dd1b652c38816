import PackageCycles.Cycle
import PackageCycles.Graph.Reach

/-!
# Depth-bounded search

The search walks a graph depth first. It keeps the path from the root to the package in hand, the
place of each package on it, and one frame per package with the number of its dependencies already
looked at. Looking at a dependency closes a cycle if it is on the path, does nothing if it is
finished or if the path has reached its greatest length, and extends the path otherwise
(`Search.visit`). `Search.step` is one such look, or the retreat from a package all of whose
dependencies have been looked at, and `Search.run` repeats it until the path is empty. It ends
because the dependencies that have not been looked at, and those that untouched packages may still
bring, become fewer at every step (`Search.work`).
-/

namespace PackageCycles

/-- How far the search is with a package. -/
inductive Status where
  /-- Not met, or met only where the path could not be extended. -/
  | untouched
  /-- On the path. -/
  | onPath
  /-- Left behind with all its dependencies looked at. -/
  | finished
  deriving DecidableEq

/-- A package on the path with the number of its dependencies that have been looked at. -/
structure Frame where
  /-- The package. -/
  package : Package
  /-- How many of its dependencies have been looked at. -/
  next : Nat
  deriving DecidableEq

/-- The state of a search. -/
structure Search where
  /-- The latest status of each package that has one other than untouched, in front of earlier
  ones. -/
  marks : List (Package × Status)
  /-- The place on the path of each package there. -/
  positions : List (Package × Nat)
  /-- The packages from the root to the one in hand. -/
  path : List Package
  /-- The frames of the path, the one in hand first. -/
  stack : List Frame
  /-- The cycles found, in the order in which they were closed. -/
  cycles : List Cycle
  deriving DecidableEq

namespace Search

/-- The search before its first root. -/
def start : Search := ⟨[], [], [], [], []⟩

/-- The status of a package. -/
def status (s : Search) (p : Package) : Status := (s.marks.lookup p).getD .untouched

/-- The search with the status of a package changed. -/
def mark (s : Search) (p : Package) (status : Status) : Search :=
  { s with marks := (p, status) :: s.marks }

/-- The place of a package on the path. -/
def position (s : Search) (p : Package) : Nat := (s.positions.lookup p).getD 0

/-- The search with the cycle recorded that `p`, a package of the path, closes. -/
def close (s : Search) (p : Package) : Search :=
  { s with cycles := s.cycles ++ [s.path.drop (s.position p) ++ [p]] }

/-- The search with the path extended by `p`. -/
def push (s : Search) (p : Package) : Search :=
  { s.mark p .onPath with
    positions := (p, s.path.length) :: s.positions
    path := s.path ++ [p]
    stack := ⟨p, 0⟩ :: s.stack }

/-- Looks at `p` from the end of the path, which may grow to `maxDepth` packages. -/
def visit (maxDepth : Nat) (s : Search) (p : Package) : Search :=
  match s.status p with
  | .onPath => s.close p
  | .finished => s
  | .untouched => if maxDepth ≤ s.path.length then s else s.push p

/-- The search with the path shortened by its last package `p`, which is finished. -/
def retreat (s : Search) (p : Package) (below : List Frame) : Search :=
  { s.mark p .finished with
    positions := s.positions.filter (·.1 ≠ p)
    path := s.path.dropLast
    stack := below }

/-- One step: a look at the next dependency of the package in hand, or the retreat from it. There
is none when the path is empty. -/
def step (g : Graph) (maxDepth : Nat) (s : Search) : Option Search :=
  match s.stack with
  | [] => none
  | frame :: below =>
    match (g.dependencies frame.package)[frame.next]? with
    | some dependency =>
      some (visit maxDepth { s with stack := { frame with next := frame.next + 1 } :: below }
        dependency)
    | none => some (s.retreat frame.package below)

/-- The dependencies of a package on the path that have not been looked at, and the retreat. -/
def frameWork (g : Graph) (frame : Frame) : Nat :=
  (g.dependencies frame.package).length - frame.next + 1

/-- The ends of edges that are untouched. -/
def untouched (g : Graph) (s : Search) : Nat := g.ends.countP fun p => s.status p = .untouched

/-- What is left to do: the frames' work, and that of a frame for each untouched end. -/
def work (g : Graph) (s : Search) : Nat :=
  untouched g s * (g.edgeCount + 2) + (s.stack.map (frameWork g)).foldr (· + ·) 0

theorem status_mark (s : Search) (p q : Package) (m : Status) :
    (s.mark p m).status q = if q = p then m else s.status q := by
  by_cases h : q = p
  · simp [status, mark, h]
  · have : (q == p) = false := by simpa using h
    simp [status, mark, List.lookup_cons, this, h]

/-- Marking a package with a status other than untouched leaves no more untouched ends. -/
theorem untouched_mark_le (g : Graph) (s : Search) (p : Package) {m : Status}
    (hm : m ≠ .untouched) : untouched g (s.mark p m) ≤ untouched g s :=
  List.countP_mono_left fun q _ hq => by
    simp only [status_mark, decide_eq_true_eq] at hq ⊢
    split at hq <;> simp_all

/-- Marking an untouched end leaves fewer of them. -/
theorem untouched_mark_lt (g : Graph) (s : Search) {p : Package} {m : Status} (hp : p ∈ g.ends)
    (hs : s.status p = .untouched) (hm : m ≠ .untouched) :
    untouched g (s.mark p m) < untouched g s := by
  refine Graph.countP_lt_countP (fun q _ hq => ?_) hp (by simp [status_mark, hm]) (by simp [hs])
  simp only [status_mark, decide_eq_true_eq] at hq ⊢
  split at hq <;> simp_all

/-- A look at a dependency that follows the advance of the frame in hand leaves less to do. -/
theorem work_visit_lt (g : Graph) (maxDepth : Nat) (s : Search) (frame : Frame)
    (below : List Frame) (hs : s.stack = frame :: below) {p : Package}
    (hp : (g.dependencies frame.package)[frame.next]? = some p) :
    work g (visit maxDepth { s with stack := { frame with next := frame.next + 1 } :: below } p) <
      work g s := by
  obtain ⟨hlt, hget⟩ := List.getElem?_eq_some_iff.1 hp
  have hends : p ∈ g.ends := Graph.mem_ends_of_mem_dependencies (hget ▸ List.getElem_mem hlt)
  have hlen := g.length_dependencies_le p
  have hadvance : work g { s with stack := { frame with next := frame.next + 1 } :: below } <
      work g s := by
    have heq : untouched g { s with stack := { frame with next := frame.next + 1 } :: below } =
        untouched g s := rfl
    simp only [work, heq]
    simp only [hs, List.map_cons, List.foldr_cons, frameWork]
    omega
  unfold visit
  split
  · exact hadvance
  · exact hadvance
  next hst =>
    split
    · exact hadvance
    · have hst' : s.status p = .untouched := hst
      have hlt' := Nat.mul_le_mul_right (g.edgeCount + 2)
        (Nat.succ_le_of_lt (untouched_mark_lt g s hends hst' (m := .onPath) (by simp)))
      rw [Nat.succ_mul] at hlt'
      have heq : untouched g (push
          { s with stack := { frame with next := frame.next + 1 } :: below } p) =
          untouched g (s.mark p .onPath) := rfl
      simp only [work, heq]
      simp only [push, hs, List.map_cons, List.foldr_cons, frameWork]
      omega

/-- The retreat from the package in hand leaves less to do. -/
theorem work_retreat_lt (g : Graph) (s : Search) (frame : Frame) (below : List Frame)
    (hs : s.stack = frame :: below) : work g (s.retreat frame.package below) < work g s := by
  have hle := Nat.mul_le_mul_right (g.edgeCount + 2)
    (untouched_mark_le g s frame.package (m := .finished) (by simp))
  have heq : untouched g (s.retreat frame.package below) =
      untouched g (s.mark frame.package .finished) := rfl
  simp only [work, heq]
  simp only [retreat, hs, List.map_cons, List.foldr_cons, frameWork]
  omega

/-- Every step leaves less to do. -/
theorem work_step_lt {g : Graph} {maxDepth : Nat} {s t : Search} (h : step g maxDepth s = some t) :
    work g t < work g s := by
  unfold step at h
  split at h
  · cases h
  next frame below hs =>
    split at h
    next p hp =>
      cases h
      exact work_visit_lt g maxDepth s frame below hs hp
    next =>
      cases h
      exact work_retreat_lt g s frame below hs

/-- Steps until the path is empty. -/
def finish (g : Graph) (maxDepth : Nat) (s : Search) : Search :=
  match _h : step g maxDepth s with
  | none => s
  | some t => finish g maxDepth t
termination_by work g s
decreasing_by exact work_step_lt _h

/-- Searches everything that can be reached from `root`. -/
def run (s : Search) (g : Graph) (maxDepth : Nat) (root : Package) : Search :=
  finish g maxDepth (visit maxDepth s root)

end Search

end PackageCycles
