import PackageCycles.Proofs.Graph.Walk

/-!
# The queue collects what can be reached

Working off the queue of `Graph.reach` meets only packages that a set closed under dependencies
holds, if it holds the packages met and queued before (`forall_mem_reach`). Conversely all packages
met or queued are met in the end, and then all dependencies of the packages met are met too
(`Covers.reach`). So the transitive dependencies of a package are the packages that it reaches
(`mem_transitiveDependencies`).
-/

namespace PackageCycles.Graph

section
variable {g : Graph} {visited queue : List Package} {p q : Package}

/-- What holds of the packages met and queued, and of the dependencies of each package of which it
holds, holds of all packages met in the end. -/
theorem forall_mem_reach {P : Package → Prop} (hP : ∀ p q, P p → g.hasEdge p q → P q)
    (hvisited : ∀ p ∈ visited, P p) (hqueue : ∀ p ∈ queue, P p) :
    ∀ p ∈ g.reach visited queue, P p := by
  induction visited, queue using reach.induct g with
  | case1 visited =>
    rw [reach]
    exact hvisited
  | case2 visited next rest hmet ih =>
    rw [reach, dif_pos hmet]
    exact ih hvisited fun p hp => hqueue p (List.mem_cons_of_mem _ hp)
  | case3 visited next rest hmet ih =>
    obtain ⟨hnext, hrest⟩ := List.forall_mem_cons.1 hqueue
    rw [reach, dif_neg hmet]
    refine ih (List.forall_mem_cons.2 ⟨hnext, hvisited⟩) fun p hp => ?_
    rcases List.mem_append.1 hp with hp | hp
    · exact hrest p hp
    · exact hP next p hnext (hasEdge_iff_mem_dependencies.2 hp)

/-- Every dependency of a package met has been met or is queued. -/
def Covers (g : Graph) (visited queue : List Package) : Prop :=
  ∀ p ∈ visited, ∀ q ∈ g.dependencies p, q ∈ visited ∨ q ∈ queue

/-- When the queue has been worked off, what was met or queued has been met, and so have all
dependencies of the packages met. -/
theorem Covers.reach (h : g.Covers visited queue) :
    visited ⊆ g.reach visited queue ∧ queue ⊆ g.reach visited queue ∧
      g.Covers (g.reach visited queue) [] := by
  induction visited, queue using reach.induct g with
  | case1 visited =>
    rw [Graph.reach]
    exact ⟨List.Subset.refl _, List.nil_subset _, h⟩
  | case2 visited next rest hmet ih =>
    have hnext : next ∈ visited := by simpa using hmet
    rw [Graph.reach, dif_pos hmet]
    obtain ⟨hvisited, hrest, hcovers⟩ := ih fun p hp q hq => by
      rcases h p hp q hq with hq | hq
      · exact .inl hq
      · rcases List.mem_cons.1 hq with rfl | hq
        · exact .inl hnext
        · exact .inr hq
    exact ⟨hvisited, List.cons_subset.2 ⟨hvisited hnext, hrest⟩, hcovers⟩
  | case3 visited next rest hmet ih =>
    rw [Graph.reach, dif_neg hmet]
    obtain ⟨hvisited, hrest, hcovers⟩ := ih fun p hp q hq => by
      rcases List.mem_cons.1 hp with rfl | hp
      · exact .inr (List.mem_append_right _ hq)
      · rcases h p hp q hq with hq | hq
        · exact .inl (List.mem_cons_of_mem _ hq)
        · rcases List.mem_cons.1 hq with rfl | hq
          · exact .inl List.mem_cons_self
          · exact .inr (List.mem_append_left _ hq)
    obtain ⟨hnext, hvisited⟩ := List.cons_subset.1 hvisited
    exact ⟨hvisited, List.cons_subset.2 ⟨hnext, fun p hp => hrest (List.mem_append_left _ hp)⟩,
      hcovers⟩

/-- The transitive dependencies of a package are the packages that it reaches. -/
theorem mem_transitiveDependencies : q ∈ g.transitiveDependencies p ↔ g.Reaches p q := by
  rw [transitiveDependencies, Ordered.mem_ofList]
  constructor
  · refine forall_mem_reach (P := g.Reaches p) (fun r s hpr hrs => ?_) (by simp) (fun r hr => ?_) q
    · exact hpr.trans (.edge hrs)
    · exact .edge (hasEdge_iff_mem_dependencies.2 hr)
  · intro hpq
    have hstart : g.Covers [] (g.dependencies p) := fun r hr => nomatch hr
    obtain ⟨-, hdeps, hcovers⟩ := hstart.reach
    cases hpq with
    | edge hpq => exact hdeps (hasEdge_iff_mem_dependencies.1 hpq)
    | step hpr hrq =>
      refine hrq.closed (fun r s hr hrs => ?_) (hdeps (hasEdge_iff_mem_dependencies.1 hpr))
      exact (hcovers r hr s (hasEdge_iff_mem_dependencies.1 hrs)).resolve_right List.not_mem_nil

end

end PackageCycles.Graph
