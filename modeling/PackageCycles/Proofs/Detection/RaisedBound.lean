import PackageCycles.Proofs.Detection.FirstArrival

/-!
# Raising the bound of the shared traversal

The search over all roots enters each package once, by the first walk from any root that arrives at
it, so it notices a cycle exactly if one of these walks closes one
(`sharedSearch_cycles_ne_nil_iff`). With a higher bound a package may be entered earlier, by a
longer walk that leaves no room to come round, and a cycle that was reported is missed
(`shared_detect_three_misses_forkedPair`). This cannot happen to a cycle if every path without
repetition that ends with one of its edges is within the higher bound: then one of its edges closes
a reported cycle again (`shared_detect_of_le`).
-/

namespace PackageCycles

namespace Graph

/-- No path without repetition ends with the edge of a package to itself. -/
theorem hasRoom_self (g : Graph) (n : Nat) (p : Package) : g.HasRoom n p p := by
  intro path _ hnodup
  have hpair : [p, p].Nodup := hnodup.sublist (List.sublist_append_right path [p, p])
  simp at hpair

end Graph

namespace Detector

section
variable {d : Detector} {g : Graph}

/-- The search over all roots notices a cycle exactly if a walk by which it first arrives at a
package closes one. -/
theorem sharedSearch_cycles_ne_nil_iff : (d.sharedSearch g).cycles ≠ [] ↔
    ∃ w ∈ g.arrivals d.maxDepth g.packages, g.ClosesCycle w := by
  rw [ne_eq, ← List.perm_nil, (sharedSearch_cycles_perm d g).congr_left, List.perm_nil, ← ne_eq,
    Graph.flatMap_closings_ne_nil_iff]

end

/-- Raising the bound of the shared traversal keeps a failure if there is room: a cycle reported
with the lower bound has an edge that closes a cycle reported with the higher one, if every path
without repetition that ends with one of its edges is within the higher bound. This is so for all
cycles if the higher bound is not lower than the number of packages that depend on something, and a
package that depends on itself is never missed. In general something is reported exactly if a walk
by which the search over all roots first arrives at a package closes a cycle. -/
theorem shared_detect_of_le (g : Graph) (maxDepth maxDepth' : Int) (hpos : 1 ≤ maxDepth)
    (hle : maxDepth ≤ maxDepth') :
    (∀ c ∈ (new maxDepth .shared).detect g,
      (∀ e ∈ c.steps, g.HasRoom maxDepth'.toNat e.source e.target) →
      ∃ e ∈ c.steps, ∃ r ∈ (new maxDepth' .shared).detect g, r.closingEdge? = some e) ∧
    ((g.packageCount : Int) ≤ maxDepth' ∨ (∃ p, g.hasEdge p p) →
      (new maxDepth .shared).detect g ≠ [] → (new maxDepth' .shared).detect g ≠ []) ∧
    ((new maxDepth' .shared).detect g ≠ [] ↔
      ∃ w ∈ g.arrivals maxDepth'.toNat g.packages, g.ClosesCycle w) := by
  have hbound : (new maxDepth' .shared).maxDepth = maxDepth'.toNat := by
    show max 1 maxDepth'.toNat = maxDepth'.toNat
    omega
  have hwalk : ∀ c ∈ (new maxDepth .shared).detect g, c.IsClosedWalk g := fun c hc =>
    ((sound_sharedSearch _ g).isReport c hc).simple.isClosedWalk
  have hcloses : ∀ c : Cycle, c.IsClosedWalk g →
      (∀ e ∈ c.steps, g.HasRoom maxDepth'.toNat e.source e.target) →
      ∃ e ∈ c.steps, ∃ r ∈ (new maxDepth' .shared).detect g, r.closingEdge? = some e := by
    intro c hc hroom
    refine exists_step_closes_of_hasRoom (by omega) hc ?_
    rwa [hbound]
  have hne : ∀ c : Cycle, c.IsClosedWalk g →
      (∀ e ∈ c.steps, g.HasRoom maxDepth'.toNat e.source e.target) →
      (new maxDepth' .shared).detect g ≠ [] := by
    intro c hc hroom
    obtain ⟨-, -, r, hr, -⟩ := hcloses c hc hroom
    exact List.ne_nil_of_mem hr
  refine ⟨fun c hc => hcloses c (hwalk c hc), ?_, hbound ▸ sharedSearch_cycles_ne_nil_iff⟩
  rintro (hcount | ⟨p, hp⟩) hfound
  · obtain ⟨c, hc⟩ := List.exists_mem_of_ne_nil _ hfound
    exact hne c (hwalk c hc) ((hwalk c hc).hasRoom (by omega))
  · have hloop : Cycle.steps [p, p] = [⟨p, p⟩] := rfl
    refine hne [p, p] ⟨Nat.le_refl 2, fun e he => ?_, rfl⟩ fun e he => ?_
    · obtain rfl : e = ⟨p, p⟩ := List.mem_singleton.1 (hloop ▸ he)
      exact hp
    · obtain rfl : e = ⟨p, p⟩ := List.mem_singleton.1 (hloop ▸ he)
      exact g.hasRoom_self _ p

/-- Two packages that depend on each other, and a chain of two that leads to the second of them. -/
def forkedPair : Graph := .build [⟨"a", ["d"]⟩, ⟨"b", ["c"]⟩, ⟨"c", ["b"]⟩, ⟨"d", ["c"]⟩]

/-- What a bound of two reports is reported again with a bound of all four packages. -/
theorem shared_detect_of_le_forkedPair :
    (1 : Int) ≤ 2 ∧ (2 : Int) ≤ 4 ∧ (forkedPair.packageCount : Int) ≤ 4 ∧
      (new 2 .shared).detect forkedPair ≠ [] ∧ (new 4 .shared).detect forkedPair ≠ [] :=
  have hfound : (new 2 .shared).detect forkedPair ≠ [] := by decide +kernel
  have hcount : (forkedPair.packageCount : Int) ≤ 4 := by decide +kernel
  ⟨by decide, by decide, hcount, hfound,
    (shared_detect_of_le forkedPair 2 4 (by decide) (by decide)).2.1 (.inl hcount) hfound⟩

/-- A bound of two reports the pair and a bound of three reports nothing: the walk from the first
root then enters the second package of the pair and has no room to come round. -/
theorem shared_detect_three_misses_forkedPair :
    (1 : Int) ≤ 2 ∧ (2 : Int) ≤ 3 ∧ (new 2 .shared).detect forkedPair ≠ [] ∧
      (new 3 .shared).detect forkedPair = [] := by
  refine ⟨by decide, by decide, ?_, ?_⟩ <;> decide +kernel

end Detector

end PackageCycles
