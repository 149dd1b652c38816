import PackageCycles.Proofs.Detection.Completeness

/-!
# A search of its own finds the cycles of its root

A search from one root puts the root on the path before any other package and finishes it after all
others (`Detector.exists_finished_cons`). So the root is on the path whenever the search looks at
it, and each look closes a cycle through it. Within a bound that is not lower than the number of
packages with dependencies, the search gets to every package that the root reaches. From each of
them that depends on the root it returns by this step (`Detector.exists_closingEdge?_rootCycles`),
so it finds a cycle if the root reaches itself (`Detector.exists_mem_rootCycles`).
-/

namespace PackageCycles

/-- While no package is on the path, closing edges lead to finished packages. -/
theorem Findings.Finished.mem_of_closes {g : Graph} {n : Nat} {done : List Package} {f : Findings}
    {p q : Package} (h : Finished g n done f) (hfits : Fits g [] f) (hc : Closes f.cycles p q) :
    q ∈ done := by
  rw [← h.mem_iff]
  cases hst : f.status q with
  | untouched => exact absurd hst (h.touched p q hc)
  | onPath => exact nomatch (hfits.onPath_iff q).1 hst
  | finished => rfl

namespace Detector

section
variable {d : Detector} {g : Graph} {root : Package}

/-- A search of its own finishes its root last. -/
theorem exists_finished_cons (hpos : 0 < d.maxDepth) (root : Package) :
    ∃ done, root ∉ done ∧ Findings.Finished g d.maxDepth (root :: done)
      (Search.start.run g d.maxDepth root).findings := by
  have hstart := Search.Coherent.start g d.maxDepth
  obtain ⟨room, hroom⟩ := Nat.exists_eq_add_one.2 hpos
  obtain ⟨done, hroot, h⟩ : ∃ done, root ∉ done ∧ Findings.Extends g d.maxDepth []
      Search.start.findings (root :: done)
      (Findings.explore g (room + 1) [] Search.start.findings root) :=
    (finished_start g d.maxDepth).enter hstart.fits (fun q hq => nomatch hq) rfl
      fun f done q hfits hedge h =>
        h.explore hpos (by simp; omega) hfits (by rintro _ ⟨⟩; exact hedge)
  refine ⟨done, hroot, ?_⟩
  rw [Search.run_eq_explore hstart rfl, hroom]
  rw [hroom] at h
  exact h.finished

/-- Within a bound that is not lower than the number of packages with dependencies, the search from
a package finds, for each step back to it that it reaches, a cycle that returns by this step. -/
theorem exists_closingEdge?_rootCycles (hdepth : g.packageCount ≤ d.maxDepth) {u : Package}
    (hu : u = root ∨ g.Reaches root u) (hedge : g.hasEdge u root) :
    ∃ c ∈ d.rootCycles g root, c.closingEdge? = some ⟨u, root⟩ := by
  have hu' : u ∈ g.packages := Graph.mem_packages.2 ⟨root, hedge⟩
  have hroot' : root ∈ g.packages := by
    rcases hu with rfl | hu
    · exact hu'
    · exact hu.mem_packages
  have hpos : 0 < d.maxDepth := Nat.lt_of_lt_of_le (List.length_pos_of_mem hu') hdepth
  have hrun := (Search.Coherent.start g d.maxDepth).run rfl root
  have hfits := hrun.1.fits
  rw [hrun.1.path_eq_nil hrun.2] at hfits
  obtain ⟨done, hroot, h⟩ := exists_finished_cons (g := g) hpos root
  have hroom : ∀ p, ∀ q ∈ g.packages, g.HasRoom d.maxDepth p q := fun p q hq =>
    Graph.hasRoom_of_packageCount_le hdepth hq
  have hdeps : root ∈ g.dependencies u := Graph.hasEdge_iff_mem_dependencies.1 hedge
  have hmem : u ∈ root :: done := by
    rcases hu with rfl | hu
    · exact List.mem_cons_self
    · exact h.order.mem_of_reaches hroom (fun p q => h.mem_of_closes hfits) hu hu' List.mem_cons_self
  have hsettled : Findings.Settled g d.maxDepth (d.rootCycles g root) done u root := by
    rcases List.mem_cons.1 hmem with rfl | hmem
    · exact h.order.1 u hdeps
    · exact h.order.2.settled hmem hdeps
  exact (hsettled (hroom u root hroot')).resolve_right hroot

/-- Within such a bound, the search from a package that reaches itself finds a cycle through it. -/
theorem exists_mem_rootCycles (hdepth : g.packageCount ≤ d.maxDepth)
    (hreaches : g.Reaches root root) : ∃ c ∈ d.rootCycles g root, root ∈ c := by
  obtain ⟨u, hu, hedge⟩ := hreaches.exists_last
  obtain ⟨c, hc, hclosing⟩ := exists_closingEdge?_rootCycles hdepth hu hedge
  exact ⟨c, hc, List.mem_of_mem_tail (Cycle.mem_of_mem_steps (List.mem_of_getLast? hclosing)).2⟩

end

end Detector

end PackageCycles
