import PackageCycles.Proofs.Detection.DistinctReports

/-!
# Which cycles the per-root traversal reports

The search from a root closes a cycle where one of its walks ends with the packages of the cycle, so
a cycle is reported exactly if a walk by which the search from some root first arrives at a package
ends with a rotation of it (`exists_isRotation_iff`). Other walks may arrive first from every root,
and then the cycle is missed, however high the bound is (`perRoot_detect_misses_crossedRing`). But
the search from the target of a step finds a cycle that returns by this step, so while the bound is
not lower than the number of packages that depend on something, each step of a cycle is a step of a
reported one (`exists_step_perRoot`).
-/

namespace PackageCycles.Detector

section
variable {d : Detector} {g : Graph} {c r : Cycle} {root : Package} {w : List Package} {e : Edge}

/-- A walk of the search from a root that ends with the packages of a simple cycle closes it. -/
theorem mem_rootCycles_of_suffix (hr : r.IsSimple g) (hw : w ∈ g.arrivals d.maxDepth [root])
    (hsuffix : r.dropLast <:+ w) : r ∈ d.rootCycles g root := by
  obtain ⟨q, hq, hclosed⟩ := hr.isClosedWalk.isLoop.exists_eq_concat
  obtain ⟨back, hback⟩ := List.head?_eq_some_iff.1 hq
  obtain ⟨front, rfl⟩ := hsuffix
  obtain ⟨p, hp⟩ := Option.isSome_iff_exists.1
    (List.getLast?_isSome.2 (List.ne_nil_of_mem (List.mem_of_head? hq)))
  have hedge : g.hasEdge p q := by
    have hclosing : r.closingEdge? = some ⟨p, q⟩ := by
      rw [hclosed, Cycle.closingEdge?_concat hp]
    exact hr.walk _ (List.mem_of_getLast? hclosing)
  have hlast : p ∈ (front ++ r.dropLast).getLast? := by
    rw [List.getLast?_append, hp]
    rfl
  have hfront : q ∉ front := fun hmem =>
    (List.nodup_append.1 ((g.arrived_arrivals _ _).nodup hw)).2.2 q hmem q (List.mem_of_head? hq) rfl
  rw [Graph.arrivals_singleton] at hw
  refine (rootCycles_perm d g root).mem_iff.2 (List.mem_flatMap.2 ⟨_, hw, ?_⟩)
  exact Graph.mem_closings_iff_append.2
    ⟨front, q, back, by rw [hback], hfront, by rw [← hback]; exact hclosed, p, hlast, hedge⟩

/-- A cycle found from a root makes up the end of a walk of the search. -/
theorem exists_suffix_of_mem_rootCycles (hr : r ∈ d.rootCycles g root) :
    ∃ w ∈ g.arrivals d.maxDepth [root], r.dropLast <:+ w := by
  obtain ⟨w, hw, hr⟩ := List.mem_flatMap.1 ((rootCycles_perm d g root).mem_iff.1 hr)
  obtain ⟨front, q, back, rfl, -, rfl, -⟩ := Graph.mem_closings_iff_append.1 hr
  rw [← Graph.arrivals_singleton] at hw
  refine ⟨_, hw, front, ?_⟩
  rw [List.dropLast_concat]

/-- A rotation of a simple cycle is reported exactly if a walk by which the search from some root
first arrives at a package ends with the packages of one. -/
theorem exists_isRotation_iff (hd : d.traversal = .perRoot)
    (hnul : ∀ p ∈ g.nodes, (0 : UInt8) ∉ p) (hc : c.IsSimple g) :
    (∃ r ∈ d.detect g, c.IsRotation r) ↔ ∃ root ∈ g.packages,
      ∃ w ∈ g.arrivals d.maxDepth [root], ∃ r, c.IsRotation r ∧ r.dropLast <:+ w := by
  constructor
  · rintro ⟨r, hr, hrotation⟩
    obtain ⟨root, hroot, hr⟩ := exists_mem_rootCycles_of_mem_perRoot hd hr
    obtain ⟨w, hw, hsuffix⟩ := exists_suffix_of_mem_rootCycles hr
    exact ⟨root, hroot, w, hw, r, hrotation, hsuffix⟩
  · rintro ⟨root, hroot, w, hw, r, hrotation, hsuffix⟩
    have hr := mem_rootCycles_of_suffix (hc.of_isRotation hrotation) hw hsuffix
    obtain ⟨r', hr', hrotation'⟩ := exists_isRotation_perRoot hd hnul hroot hr
    exact ⟨r', hr', hrotation.trans hrotation' hc.isClosedWalk.isLoop⟩

/-- Within a bound that is not lower than the number of packages with dependencies, each step of a
closed walk is a step of a reported cycle, if no name holds a NUL byte. -/
theorem exists_step_perRoot (hd : d.traversal = .perRoot) (hnul : ∀ p ∈ g.nodes, (0 : UInt8) ∉ p)
    (hdepth : g.packageCount ≤ d.maxDepth) (hc : c.IsClosedWalk g) (he : e ∈ c.steps) :
    ∃ r ∈ d.detect g, e ∈ r.steps := by
  have hsource : e.source ∈ c := List.dropLast_subset c (Cycle.mem_of_mem_steps he).1
  have htarget : e.target ∈ c := List.mem_of_mem_tail (Cycle.mem_of_mem_steps he).2
  obtain ⟨r, hr, hclosing⟩ := exists_closingEdge?_rootCycles hdepth
    (.inr (hc.reaches htarget hsource)) (hc.walk e he)
  obtain ⟨r', hr', hrotation⟩ :=
    exists_isRotation_perRoot hd hnul (hc.mem_packages htarget) hr
  have hsteps := hrotation.steps_perm (isReport_of_mem_rootCycles hr).simple.isClosedWalk.isLoop
  exact ⟨r', hr', hsteps.mem_iff.1 (List.mem_of_getLast? hclosing)⟩

end

/-- If no name holds a NUL byte, a simple cycle has a rotation that the per-root traversal reports
exactly if a walk by which the search from some root first arrives at a package ends with the
packages of a rotation. While the bound is not lower than the number of packages that depend on
something, every step of the cycle is a step of a reported one; so the cycle is reported if it is the
only one, up to rotation, that takes one of its steps. -/
theorem perRoot_detect_isRotation_iff (g : Graph) (maxDepth : Int)
    (hnul : ∀ p ∈ g.nodes, (0 : UInt8) ∉ p) (c : Cycle) (hc : c.IsSimple g) :
    ((∃ r ∈ (Detector.new maxDepth .perRoot).detect g, c.IsRotation r) ↔
      ∃ root ∈ g.packages, ∃ w ∈ g.arrivals (max 1 maxDepth.toNat) [root],
        ∃ r, c.IsRotation r ∧ r.dropLast <:+ w) ∧
    ((g.packageCount : Int) ≤ maxDepth → ∀ e ∈ c.steps,
      (∃ r ∈ (Detector.new maxDepth .perRoot).detect g, e ∈ r.steps) ∧
      ((∀ r : Cycle, r.IsSimple g → e ∈ r.steps → c.IsRotation r) →
        ∃ r ∈ (Detector.new maxDepth .perRoot).detect g, c.IsRotation r)) := by
  refine ⟨exists_isRotation_iff rfl hnul hc, fun hdepth e he => ?_⟩
  have hdepth : g.packageCount ≤ (Detector.new maxDepth .perRoot).maxDepth := by
    show g.packageCount ≤ max 1 maxDepth.toNat
    omega
  have hstep := exists_step_perRoot (d := .new maxDepth .perRoot) rfl hnul hdepth hc.isClosedWalk he
  refine ⟨hstep, fun honly => ?_⟩
  obtain ⟨r, hr, her⟩ := hstep
  exact ⟨r, hr, honly r (isSimple_of_mem_perRoot rfl hr) her⟩

/-- A ring of four packages, two of which depend on each other across it. -/
def crossedRing : Graph :=
  .build [⟨"a", ["b", "c"]⟩, ⟨"b", ["a", "d"]⟩, ⟨"c", ["b"]⟩, ⟨"d", ["a"]⟩]

/-- The step from `c` to `b` is a step of a reported cycle. -/
theorem perRoot_detect_isRotation_iff_crossedRing :
    (∀ p ∈ crossedRing.nodes, (0 : UInt8) ∉ p) ∧ (crossedRing.packageCount : Int) ≤ 4 ∧
      Cycle.IsSimple crossedRing ["a", "c", "b", "d", "a"] ∧
      ∃ r ∈ (new 4 .perRoot).detect crossedRing, Edge.mk "c" "b" ∈ r.steps :=
  have hnul : ∀ p ∈ crossedRing.nodes, (0 : UInt8) ∉ p := by decide +kernel
  have hdepth : (crossedRing.packageCount : Int) ≤ 4 := by decide +kernel
  have hsimple : Cycle.IsSimple crossedRing ["a", "c", "b", "d", "a"] :=
    ⟨by decide, by unfold Cycle.IsWalk; decide +kernel, rfl, by decide⟩
  ⟨hnul, hdepth, hsimple,
    ((perRoot_detect_isRotation_iff crossedRing 4 hnul _ hsimple).2 hdepth _ (by decide)).1⟩

/-- The ring itself is missed with a bound of all four packages: from each root the search comes to a
package by the step across the ring first, and when it comes there along the ring, that package is
finished. -/
theorem perRoot_detect_misses_crossedRing :
    (∀ p ∈ crossedRing.nodes, (0 : UInt8) ∉ p) ∧ (crossedRing.packageCount : Int) ≤ 4 ∧
      Cycle.IsSimple crossedRing ["a", "c", "b", "d", "a"] ∧
      ∀ r ∈ (new 4 .perRoot).detect crossedRing,
        ¬ Cycle.IsRotation ["a", "c", "b", "d", "a"] r := by
  refine ⟨by decide +kernel, by decide +kernel,
    ⟨by decide, by unfold Cycle.IsWalk; decide +kernel, rfl, by decide⟩, ?_⟩
  unfold Cycle.IsRotation
  decide +kernel

end PackageCycles.Detector
