import Mathlib.Logic.Function.Iterate
import PackageCycles.Proofs.Graph.Reachability

/-!
# The transitive closure

Working off the queue of `Graph.reach` is a loop whose rounds take one package off the queue
(`reachRound`). Every round leaves less work (`reachWork`), so the loop comes to its end
(`exists_iterate_reachRound`). What it has met then is the transitive closure of the edges: in
increasing order, the packages to which a path of one or more edges leads. A package that such a path
leads back to lies on a cycle that visits no package twice (`Reaches.exists_isSimple`).
-/

namespace PackageCycles.Graph

section
variable {g : Graph} {p q : Package}

/-! ## Paths and cycles -/

/-- Whatever is reached is a dependency of the end of a path that visits no package twice. -/
theorem Reaches.exists_nodup_path (h : g.Reaches p q) :
    ∃ path, g.IsPath (p :: path) ∧ (p :: path).Nodup ∧
      ∃ u, (p :: path).getLast? = some u ∧ g.hasEdge u q := by
  induction h with
  | @edge p q hpq => exact ⟨[], .singleton p, by simp, p, rfl, hpq⟩
  | @step p r q hpr _ ih =>
    obtain ⟨path, hpath, hnodup, u, hlast, huq⟩ := ih
    by_cases hp : p ∈ r :: path
    · -- The path has been at `p`, so it is cut off there.
      obtain ⟨before, after, hsplit⟩ := List.append_of_mem hp
      rw [hsplit] at hpath hnodup hlast
      refine ⟨after, hpath.right_of_append, (List.nodup_append.1 hnodup).2.1, u, ?_, huq⟩
      rwa [List.getLast?_append_cons] at hlast
    · exact ⟨r :: path, List.isChain_cons_cons.2 ⟨hpr, hpath⟩, List.nodup_cons.2 ⟨hp, hnodup⟩, u,
        by rwa [List.getLast?_cons_cons], huq⟩

/-- A package reaches another exactly if a path of one or more edges leads to it. -/
theorem reaches_iff_exists_isPath : g.Reaches p q ↔ ∃ path, g.IsPath (p :: path ++ [q]) := by
  constructor
  · intro h
    obtain ⟨path, hpath, -, u, hlast, huq⟩ := h.exists_nodup_path
    refine ⟨path, hpath.concat fun r hr => ?_⟩
    rw [hlast, Option.mem_some_iff] at hr
    exact hr ▸ huq
  · rintro ⟨path, hpath⟩
    exact hpath.reaches_concat List.mem_cons_self

/-- A package that reaches itself lies on a cycle that visits no package twice. -/
theorem Reaches.exists_isSimple (h : g.Reaches p p) : ∃ c : Cycle, c.IsSimple g ∧ p ∈ c := by
  obtain ⟨path, hpath, hnodup, u, hlast, hup⟩ := h.exists_nodup_path
  have hclosed : g.IsPath (p :: path ++ [p]) := hpath.concat fun r hr => by
    rw [hlast, Option.mem_some_iff] at hr
    exact hr ▸ hup
  refine ⟨p :: path ++ [p], ⟨by simp, Cycle.isWalk_iff_isPath.2 hclosed, ?_, ?_⟩, by simp⟩
  · rw [Cycle.IsClosed, List.getLast?_concat, List.cons_append, List.head?_cons]
  · rwa [List.dropLast_concat]

/-! ## The rounds of the loop -/

/-- One round of working off the queue: the first package is met, unless it has been met before, and
its dependencies are queued. -/
def reachRound (g : Graph) : List Package × List Package → List Package × List Package
  | (visited, []) => (visited, [])
  | (visited, next :: rest) =>
    if visited.contains next then (visited, rest)
    else (next :: visited, rest ++ g.dependencies next)

/-- The queue is worked off after at most as many rounds as there is work. -/
theorem exists_iterate_reachRound (g : Graph) (visited queue : List Package) :
    ∃ n ≤ g.reachWork visited queue,
      Nat.iterate g.reachRound n (visited, queue) = (g.reach visited queue, []) := by
  induction visited, queue using reach.induct g with
  | case1 visited => exact ⟨0, Nat.zero_le _, by rw [reach]; rfl⟩
  | case2 visited next rest hmet ih =>
    obtain ⟨n, hn, hrun⟩ := ih
    have hwork : g.reachWork visited (next :: rest) = g.reachWork visited rest + 1 := rfl
    have hround : g.reachRound (visited, next :: rest) = (visited, rest) := if_pos hmet
    refine ⟨n + 1, by omega, ?_⟩
    rw [Function.iterate_succ_apply, hround, hrun]
    conv_rhs => rw [reach, dif_pos hmet]
  | case3 visited next rest hmet ih =>
    obtain ⟨n, hn, hrun⟩ := ih
    have hwork : g.reachWork (next :: visited) (rest ++ g.dependencies next) <
        g.reachWork visited (next :: rest) := g.reachWork_expand_lt (Bool.eq_false_iff.2 hmet)
    have hround : g.reachRound (visited, next :: rest) =
        (next :: visited, rest ++ g.dependencies next) := if_neg hmet
    refine ⟨n + 1, by omega, ?_⟩
    rw [Function.iterate_succ_apply, hround, hrun]
    conv_rhs => rw [reach, dif_neg hmet]

/-! ## The packages that the loop collects -/

/-- The queue is worked off after finitely many rounds. The transitive dependencies, which are the
packages met by then, come in strictly increasing order and are exactly the packages to which a path
of one or more edges leads. So a package is among its own exactly if it lies on a cycle. -/
theorem transitiveDependencies_closure (g : Graph) (p : Package) :
    (∃ n ≤ g.reachWork [] (g.dependencies p), ∃ visited,
      Nat.iterate g.reachRound n ([], g.dependencies p) = (visited, []) ∧
        g.transitiveDependencies p = Ordered.ofList visited) ∧
    Ordered.IsOrdered (g.transitiveDependencies p) ∧
    (∀ q, q ∈ g.transitiveDependencies p ↔ ∃ path, g.IsPath (p :: path ++ [q])) ∧
    (p ∈ g.transitiveDependencies p ↔ ∃ c : Cycle, c.IsSimple g ∧ p ∈ c) := by
  refine ⟨?_, Ordered.isOrdered_ofList _, fun q => ?_, ?_⟩
  · obtain ⟨n, hn, hrun⟩ := g.exists_iterate_reachRound [] (g.dependencies p)
    exact ⟨n, hn, _, hrun, rfl⟩
  · rw [mem_transitiveDependencies, reaches_iff_exists_isPath]
  · rw [mem_transitiveDependencies]
    constructor
    · exact Reaches.exists_isSimple
    · rintro ⟨c, hc, hp⟩
      exact hc.isClosedWalk.reaches hp hp

end

end PackageCycles.Graph
