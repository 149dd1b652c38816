import PackageCycles.Proofs.Cycle.Key
import PackageCycles.Proofs.Detection.RootSearch
import PackageCycles.Proofs.Graph.Reachability

/-!
# The packages on reported cycles

The search from a package on a cycle finds a cycle through it, and leaving out repeated cycles keeps
one with the same key (`exists_mem_distinct`), which has the same packages. So within a bound that
is not lower than the number of packages with dependencies, the per-root traversal reports cycles
through exactly the packages that are among their own transitive dependencies
(`perRoot_mem_detect_iff`).
-/

namespace PackageCycles.Detector

section
variable {d : Detector} {g : Graph} {c : Cycle} {p : Package}

/-- Leaving out repeated cycles leaves one with each key that is not known already. -/
theorem exists_mem_distinct : ∀ {cycles : List Cycle} {seen : List Text}, c ∈ cycles →
    c.key ∉ seen → ∃ r ∈ distinct seen cycles, r.key = c.key
  | [], _, hc, _ => nomatch hc
  | first :: rest, seen, hc, hseen => by
    unfold distinct
    split
    next hfirst =>
      rcases List.mem_cons.1 hc with rfl | hc
      · exact absurd (List.contains_iff_mem.1 hfirst) hseen
      · exact exists_mem_distinct hc hseen
    next =>
      by_cases hkey : first.key = c.key
      · exact ⟨first, List.mem_cons_self, hkey⟩
      · have hc : c ∈ rest := (List.mem_cons.1 hc).resolve_left fun heq => hkey (heq ▸ rfl)
        have hseen : c.key ∉ first.key :: seen := fun hmem =>
          (List.mem_cons.1 hmem).elim (fun heq => hkey heq.symm) hseen
        obtain ⟨r, hr, hrc⟩ := exists_mem_distinct hc hseen
        exact ⟨r, List.mem_cons_of_mem _ hr, hrc⟩

/-- What the per-root traversal reports is found from some root. -/
theorem exists_mem_rootCycles_of_mem_perRoot (hd : d.traversal = .perRoot) (hc : c ∈ d.detect g) :
    ∃ root ∈ g.packages, c ∈ d.rootCycles g root := by
  rw [detect, hd] at hc
  exact List.mem_flatMap.1 (mem_of_mem_distinct hc)

/-- What the per-root traversal reports is a closed walk. -/
theorem isClosedWalk_of_mem_perRoot (hd : d.traversal = .perRoot) (hc : c ∈ d.detect g) :
    c.IsClosedWalk g := by
  obtain ⟨root, -, hc⟩ := exists_mem_rootCycles_of_mem_perRoot hd hc
  exact (isReport_of_mem_rootCycles hc).simple.isClosedWalk

/-- What is found from some root is reported, or something with the same key is. -/
theorem exists_mem_perRoot (hd : d.traversal = .perRoot) {root : Package}
    (hroot : root ∈ g.packages) (hc : c ∈ d.rootCycles g root) :
    ∃ r ∈ d.detect g, r.key = c.key := by
  rw [detect, hd]
  exact exists_mem_distinct (List.mem_flatMap.2 ⟨root, hroot, hc⟩) List.not_mem_nil

/-- If no name holds a NUL byte and the bound is not lower than the number of packages that depend
on something, a package is on a cycle that the per-root traversal reports exactly if it is among its
own transitive dependencies. -/
theorem perRoot_mem_detect_iff (g : Graph) (maxDepth : Int)
    (hnul : ∀ p ∈ g.nodes, (0 : UInt8) ∉ p) (hdepth : (g.packageCount : Int) ≤ maxDepth)
    (p : Package) :
    (∃ c ∈ (Detector.new maxDepth .perRoot).detect g, p ∈ c) ↔ p ∈ g.transitiveDependencies p := by
  rw [Graph.mem_transitiveDependencies]
  constructor
  · rintro ⟨c, hc, hp⟩
    exact (isClosedWalk_of_mem_perRoot rfl hc).reaches hp hp
  · intro hreaches
    have hdepth : g.packageCount ≤ (Detector.new maxDepth .perRoot).maxDepth := by
      show g.packageCount ≤ max 1 maxDepth.toNat
      omega
    obtain ⟨c, hc, hp⟩ := exists_mem_rootCycles hdepth hreaches
    obtain ⟨r, hr, hkey⟩ := exists_mem_perRoot (d := .new maxDepth .perRoot) rfl
      hreaches.mem_packages hc
    have hrc : p ∈ r ↔ p ∈ c := Cycle.mem_iff_of_key_eq (isClosedWalk_of_mem_perRoot rfl hr)
      (isReport_of_mem_rootCycles hc).simple.isClosedWalk hnul hkey
    exact ⟨r, hr, hrc.2 hp⟩

/-- A ring of three packages with a chord, and a package that leads into it. -/
def chordRing : Graph := .build [⟨"a", ["b", "c"]⟩, ⟨"b", ["c"]⟩, ⟨"c", ["a"]⟩, ⟨"d", ["a"]⟩]

/-- The packages of the ring are on reported cycles, and the one that leads into it is not. -/
theorem perRoot_mem_detect_iff_chordRing :
    (∀ p ∈ chordRing.nodes, (0 : UInt8) ∉ p) ∧ (chordRing.packageCount : Int) ≤ 4 ∧
      (∃ c ∈ (new 4 .perRoot).detect chordRing, ("b" : Package) ∈ c) ∧
      ¬ ∃ c ∈ (new 4 .perRoot).detect chordRing, ("d" : Package) ∈ c :=
  have hnul : ∀ p ∈ chordRing.nodes, (0 : UInt8) ∉ p := by decide +kernel
  have hdepth : (chordRing.packageCount : Int) ≤ 4 := by decide +kernel
  ⟨hnul, hdepth, (perRoot_mem_detect_iff chordRing 4 hnul hdepth "b").2 (by decide +kernel),
    fun hd => absurd ((perRoot_mem_detect_iff chordRing 4 hnul hdepth "d").1 hd)
      (by decide +kernel)⟩

end

end PackageCycles.Detector
