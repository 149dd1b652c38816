import PackageCycles.Proofs.Detection.Arrivals
import PackageCycles.Proofs.Detection.CyclicPackages

/-!
# No cycle is reported twice

The search over all roots enters each package once and looks at each of its dependencies once, so
the steps by which the cycles return that it finds are distinct, and no cycle is a rotation of
another (`pairwise_not_isRotation_sharedSearch`). The per-root traversal finds cycles again from
other roots and leaves out those whose key it has met. The keys of what is left are distinct
(`nodup_key_distinct`), and all rotations of a simple cycle have one key, so here too no report is a
rotation of another. If no name holds a NUL byte, cycles with one key are rotations of each other,
and every cycle that is left out has a rotation that is reported (`exists_isRotation_perRoot`).
-/

namespace PackageCycles.Detector

section
variable {d : Detector} {g : Graph} {c : Cycle} {root : Package}

/-- The cycles that are left have distinct keys, none of which was known already. -/
theorem nodup_key_distinct : ∀ (seen : List Text) (cycles : List Cycle),
    ((distinct seen cycles).map Cycle.key).Nodup ∧ ∀ c ∈ distinct seen cycles, c.key ∉ seen
  | _, [] => ⟨.nil, nofun⟩
  | seen, first :: rest => by
    unfold distinct
    split
    next => exact nodup_key_distinct seen rest
    next hfirst =>
      obtain ⟨hnodup, hnew⟩ := nodup_key_distinct (first.key :: seen) rest
      have hfirst : first.key ∉ seen := fun hmem => hfirst (List.contains_iff_mem.2 hmem)
      refine ⟨List.nodup_cons.2 ⟨fun hmem => ?_, hnodup⟩, List.forall_mem_cons.2 ⟨hfirst, ?_⟩⟩
      · obtain ⟨c, hc, hkey⟩ := List.mem_map.1 hmem
        exact hnew c hc (hkey ▸ List.mem_cons_self)
      · exact fun c hc hmem => hnew c hc (List.mem_cons_of_mem _ hmem)

theorem nodup_closingEdge?_sharedSearch (d : Detector) (g : Graph) :
    ((d.sharedSearch g).cycles.map Cycle.closingEdge?).Nodup :=
  ((sharedSearch_cycles_perm d g).map _).nodup_iff.2 (g.arrived_arrivals _ _).nodup_closingEdge?

/-- The steps by which the cycles return that the search over all roots finds are edges. -/
theorem length_sharedSearch_cycles_le (d : Detector) (g : Graph) :
    (d.sharedSearch g).cycles.length ≤ g.edgeCount := by
  have hsubset : (d.sharedSearch g).cycles.map Cycle.closingEdge? ⊆ g.edges.map some := by
    intro e he
    obtain ⟨c, hc, rfl⟩ := List.mem_map.1 he
    obtain ⟨w, -, hc⟩ := List.mem_flatMap.1 ((sharedSearch_cycles_perm d g).mem_iff.1 hc)
    obtain ⟨p, hp, q, hq, hedge, rfl⟩ := Graph.mem_closings.1 hc
    obtain ⟨u, hu, hclosing⟩ := Findings.exists_closingEdge? hq
    rw [hclosing]
    have hup : u = p := Option.mem_unique hu hp
    exact List.mem_map.2 ⟨⟨u, q⟩, Graph.hasEdge_iff_mem_edges.1 (hup ▸ hedge), rfl⟩
  have hlen := ((nodup_closingEdge?_sharedSearch d g).subperm hsubset).length_le
  rwa [List.length_map, List.length_map] at hlen

theorem pairwise_not_isRotation_sharedSearch (d : Detector) (g : Graph) :
    (d.sharedSearch g).cycles.Pairwise fun c c' => ¬ c.IsRotation c' ∧ ¬ c'.IsRotation c := by
  have hclosed : ∀ c ∈ (d.sharedSearch g).cycles,
      c ∈ (g.arrivals d.maxDepth g.packages).flatMap g.closings := fun c hc =>
    (sharedSearch_cycles_perm d g).mem_iff.1 hc
  have hnodup : (d.sharedSearch g).cycles.Nodup :=
    (nodup_closingEdge?_sharedSearch d g).of_map
  refine List.Pairwise.imp_of_mem (fun {c c'} hc hc' hne => ⟨fun h => hne ?_, fun h => hne ?_⟩)
    hnodup
  · exact (g.arrived_arrivals _ _).eq_of_isRotation (hclosed c hc) (hclosed c' hc') h
  · exact ((g.arrived_arrivals _ _).eq_of_isRotation (hclosed c' hc') (hclosed c hc) h).symm

theorem isSimple_of_mem_perRoot (hd : d.traversal = .perRoot) (hc : c ∈ d.detect g) :
    c.IsSimple g := by
  obtain ⟨root, -, hc⟩ := exists_mem_rootCycles_of_mem_perRoot hd hc
  exact (isReport_of_mem_rootCycles hc).simple

theorem pairwise_not_isRotation_perRoot (hd : d.traversal = .perRoot) (g : Graph) :
    (d.detect g).Pairwise fun c c' => ¬ c.IsRotation c' ∧ ¬ c'.IsRotation c := by
  have hkeys : ((d.detect g).map Cycle.key).Nodup := by
    rw [detect, hd]
    exact (nodup_key_distinct [] _).1
  refine (List.pairwise_map.1 hkeys).imp_of_mem fun {c c'} hc hc' hne =>
    ⟨fun h => hne ?_, fun h => hne ?_⟩
  · exact (isSimple_of_mem_perRoot hd hc).key_eq_of_isRotation h
  · exact ((isSimple_of_mem_perRoot hd hc').key_eq_of_isRotation h).symm

/-- Every cycle found from a root has a rotation that the per-root traversal reports, if no name
holds a NUL byte. -/
theorem exists_isRotation_perRoot (hd : d.traversal = .perRoot)
    (hnul : ∀ p ∈ g.nodes, (0 : UInt8) ∉ p) (hroot : root ∈ g.packages)
    (hc : c ∈ d.rootCycles g root) : ∃ r ∈ d.detect g, c.IsRotation r := by
  obtain ⟨r, hr, hkey⟩ := exists_mem_perRoot hd hroot hc
  exact ⟨r, hr, Cycle.isRotation_of_key_eq (isReport_of_mem_rootCycles hc).simple.isClosedWalk
    (isSimple_of_mem_perRoot hd hr).isClosedWalk hnul hkey.symm⟩

end

/-- Whatever the bound and the traversal, no reported cycle is a rotation of another. The shared
traversal reports cycles that return by distinct steps, hence not more cycles than there are edges.
If no name holds a NUL byte, the per-root traversal reports a rotation of every cycle that the search
from some root finds. -/
theorem detect_pairwise_not_isRotation (g : Graph) (maxDepth : Int) :
    (∀ traversal, ((Detector.new maxDepth traversal).detect g).Pairwise
      fun c c' => ¬ c.IsRotation c' ∧ ¬ c'.IsRotation c) ∧
    (((Detector.new maxDepth .shared).detect g).map Cycle.closingEdge?).Nodup ∧
    ((Detector.new maxDepth .shared).detect g).length ≤ g.edgeCount ∧
    ((∀ p ∈ g.nodes, (0 : UInt8) ∉ p) → ∀ root ∈ g.packages,
      ∀ c ∈ (Detector.new maxDepth .perRoot).rootCycles g root,
        ∃ r ∈ (Detector.new maxDepth .perRoot).detect g, c.IsRotation r) := by
  refine ⟨fun traversal => ?_, nodup_closingEdge?_sharedSearch _ g,
    length_sharedSearch_cycles_le _ g, fun hnul root hroot c hc =>
      exists_isRotation_perRoot rfl hnul hroot hc⟩
  cases traversal with
  | perRoot => exact pairwise_not_isRotation_perRoot rfl g
  | shared => exact pairwise_not_isRotation_sharedSearch _ g
  | unnamed => exact pairwise_not_isRotation_sharedSearch _ g

/-- A ring of three packages with a step back in it. -/
def backRing : Graph := .build [⟨"a", ["b"]⟩, ⟨"b", ["a", "c"]⟩, ⟨"c", ["a"]⟩]

/-- The search from `b` finds the ring of three packages as it is seen from there, and the report has
it as it is seen from `a`. The shared traversal reports two cycles with two packages in common,
which return by different steps. -/
theorem detect_pairwise_not_isRotation_chordRing :
    (∀ p ∈ chordRing.nodes, (0 : UInt8) ∉ p) ∧ ("b" : Package) ∈ chordRing.packages ∧
      (["b", "c", "a", "b"] : Cycle) ∈ (new 4 .perRoot).rootCycles chordRing "b" ∧
      (["b", "c", "a", "b"] : Cycle) ∉ (new 4 .perRoot).detect chordRing ∧
      (∃ r ∈ (new 4 .perRoot).detect chordRing, Cycle.IsRotation ["b", "c", "a", "b"] r) ∧
      (new 4 .shared).detect backRing =
        [(["a", "b", "a"] : Cycle), (["a", "b", "c", "a"] : Cycle)] ∧
      ((new 4 .shared).detect backRing).Pairwise
        (fun c c' => ¬ c.IsRotation c' ∧ ¬ c'.IsRotation c) ∧
      (((new 4 .shared).detect backRing).map Cycle.closingEdge?).Nodup ∧
      ((new 4 .shared).detect backRing).length ≤ backRing.edgeCount := by
  have hnul : ∀ p ∈ chordRing.nodes, (0 : UInt8) ∉ p := by decide +kernel
  have hroot : ("b" : Package) ∈ chordRing.packages := by decide +kernel
  have hfound : (["b", "c", "a", "b"] : Cycle) ∈ (new 4 .perRoot).rootCycles chordRing "b" := by
    decide +kernel
  obtain ⟨-, -, -, hreported⟩ := detect_pairwise_not_isRotation chordRing 4
  obtain ⟨hpairwise, hclosing, hlength, -⟩ := detect_pairwise_not_isRotation backRing 4
  exact ⟨hnul, hroot, hfound, by decide +kernel, hreported hnul _ hroot _ hfound,
    by decide +kernel, hpairwise .shared, hclosing, hlength⟩

end PackageCycles.Detector
