import PackageCycles.Graph.Basic

/-!
# Transitive dependencies

`Graph.transitiveDependencies` collects what a package depends on directly or through others. It
works through a queue of packages, each of which is expanded at the first time it is met, so the
work is bounded by the number of targets not met yet and the length of the queue (`reachWork`).
`Graph.Reaches` is the relation it computes: there is a walk of at least one edge.
-/

namespace PackageCycles.Graph

/-- There is a walk of one or more edges from the one package to the other. -/
inductive Reaches (g : Graph) : Package → Package → Prop where
  /-- One edge. -/
  | edge {p q : Package} : g.hasEdge p q → Reaches g p q
  /-- One more edge in front of a walk. -/
  | step {p q r : Package} : g.hasEdge p q → Reaches g q r → Reaches g p r

/-- The ends of edges that have not been met yet. -/
def unmet (g : Graph) (visited : List Package) : Nat :=
  g.ends.countP fun p => !visited.contains p

/-- What is left to do: each unmet end may put as many packages into the queue as there are
edges. -/
def reachWork (g : Graph) (visited queue : List Package) : Nat :=
  g.unmet visited * (g.edgeCount + 1) + queue.length

/-- A count goes down when an element that was counted no longer is and no other one is added. -/
theorem countP_lt_countP {α : Type} {p q : α → Bool} {xs : List α}
    (himp : ∀ x ∈ xs, p x → q x) {x : α} (hx : x ∈ xs) (hp : p x = false) (hq : q x = true) :
    xs.countP p < xs.countP q := by
  obtain ⟨before, after, rfl⟩ := List.append_of_mem hx
  have hb : before.countP p ≤ before.countP q :=
    List.countP_mono_left fun y hy => himp y (by simp [hy])
  have ha : after.countP p ≤ after.countP q :=
    List.countP_mono_left fun y hy => himp y (by simp [hy])
  simp only [List.countP_append, List.countP_cons, hp, hq, Bool.false_eq_true, ↓reduceIte]
  omega

/-- Expanding a package that has not been met leaves less to do. -/
theorem reachWork_expand_lt (g : Graph) {visited queue : List Package} {p : Package}
    (h : visited.contains p = false) :
    g.reachWork (p :: visited) (queue ++ g.dependencies p) < g.reachWork visited (p :: queue) := by
  simp only [reachWork, List.length_append, List.length_cons]
  by_cases hp : p ∈ g.ends
  · have hlen := g.length_dependencies_le p
    have hlt : g.unmet (p :: visited) < g.unmet visited :=
      countP_lt_countP (fun q _ hq => by simp_all) hp (by simp) (by simpa using h)
    have := Nat.mul_le_mul_right (g.edgeCount + 1) (Nat.succ_le_of_lt hlt)
    rw [Nat.succ_mul] at this
    omega
  · have hle : g.unmet (p :: visited) ≤ g.unmet visited :=
      List.countP_mono_left fun q _ hq => by simp_all
    have := Nat.mul_le_mul_right (g.edgeCount + 1) hle
    rw [dependencies_eq_nil hp, List.length_nil]
    omega

/-- The packages met when the queue is worked off, the latest first. -/
def reach (g : Graph) (visited queue : List Package) : List Package :=
  match queue with
  | [] => visited
  | next :: rest =>
    if _h : visited.contains next then reach g visited rest
    else reach g (next :: visited) (rest ++ g.dependencies next)
termination_by g.reachWork visited queue
decreasing_by
  · simp only [reachWork, List.length_cons]; omega
  · exact g.reachWork_expand_lt (by simpa using _h)

/-- What `package` depends on directly or through others, in increasing order. The package itself
is among them if it lies on a cycle. -/
def transitiveDependencies (g : Graph) (package : Package) : List Package :=
  Ordered.ofList (g.reach [] (g.dependencies package))

end PackageCycles.Graph
