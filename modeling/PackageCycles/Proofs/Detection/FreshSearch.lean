import PackageCycles.Proofs.Detection.DistinctReports

/-!
# A search of its own repeats what the shared one does

When the search over all roots comes to a root, the packages that it has finished depend on finished
packages only, if the bound is not lower than the number of packages that depend on something
(`FollowsRoots.exists_arrival`). So a fresh search from this root, which enters finished packages
again, never comes back from them to packages that are not finished: outside of them the two searches
take the same walks (`Graph.AgreeOutside.firstArrivals`). Every walk of the search over all roots is
a walk of the fresh search from some root (`exists_mem_arrivals_singleton`), hence closes the same
cycles there.
-/

namespace PackageCycles

namespace Graph

/-- The same walks arrive at packages that are not inside. -/
def AgreeOutside (inside : Package → Prop) (kept kept' : List (List Package)) : Prop :=
  ∀ path p, ¬ inside p → (path ++ [p] ∈ kept ↔ path ++ [p] ∈ kept')

namespace AgreeOutside

section
variable {g : Graph} {inside : Package → Prop} {kept kept' list : List (List Package)}
  {path : List Package} {p : Package}

theorem symm (h : AgreeOutside inside kept kept') : AgreeOutside inside kept' kept :=
  fun path p hp => (h path p hp).symm

/-- A walk that arrives first at a package outside does so in both collections, if no edge leads out
of the inside. -/
theorem arrivesFirst (h : AgreeOutside inside kept kept')
    (hinside : ∀ p q, inside p → g.hasEdge p q → inside q) (hpath : g.IsPath (path ++ [p]))
    (hp : ¬ inside p) (hfirst : ArrivesFirst kept (path ++ [p])) :
    ArrivesFirst kept' (path ++ [p]) := by
  obtain ⟨hparent, hend⟩ := hfirst
  rw [List.dropLast_concat] at hparent
  constructor
  · rw [List.dropLast_concat]
    rcases List.eq_nil_or_concat path with rfl | ⟨front, u, rfl⟩
    · exact .inl rfl
    · rw [List.concat_eq_append] at hparent hpath ⊢
      have hedge : g.hasEdge u p := by
        refine (List.isChain_append.1 hpath).2.2 u ?_ p ?_
        · rw [List.getLast?_concat, Option.mem_some_iff]
        · rw [List.head?_singleton, Option.mem_some_iff]
      have hu : ¬ inside u := fun hu => hp (hinside u p hu hedge)
      exact hparent.imp_right (h front u hu).1
  · intro w hw heq
    rw [List.getLast?_concat] at heq
    obtain ⟨front, rfl⟩ := List.getLast?_eq_some_iff.1 heq
    exact hend _ ((h front p hp).2 hw) (by rw [List.getLast?_concat, List.getLast?_concat])

/-- Keeping the walks of a list that arrive first keeps the agreement. -/
theorem firstArrivals (hinside : ∀ p q, inside p → g.hasEdge p q → inside q) :
    ∀ {list kept kept' : List (List Package)}, (∀ w ∈ list, w ≠ [] ∧ g.IsPath w) →
      AgreeOutside inside kept kept' →
      AgreeOutside inside (firstArrivals kept list) (firstArrivals kept' list)
  | [], _, _, _, h => h
  | walk :: rest, kept, kept', hlist, h => by
    obtain ⟨⟨hne, hwalk⟩, hrest⟩ := List.forall_mem_cons.1 hlist
    obtain ⟨path, p, rfl⟩ : ∃ path p, walk = path ++ [p] :=
      ⟨_, _, (List.dropLast_concat_getLast hne).symm⟩
    rw [Graph.firstArrivals, Graph.firstArrivals]
    refine AgreeOutside.firstArrivals hinside hrest fun front q hq => ?_
    by_cases hp : inside p
    -- A walk that arrives inside is none of those that are compared.
    · have hne : front ++ [q] ≠ path ++ [p] := fun heq => by
        have hqp : q = p := by simpa using congrArg List.getLast? heq
        exact hq (hqp ▸ hp)
      have hkeep : ∀ kept : List (List Package), front ++ [q] ∈
          (if ArrivesFirst kept (path ++ [p]) then (path ++ [p]) :: kept else kept) ↔
            front ++ [q] ∈ kept := fun kept => by
        split
        · rw [List.mem_cons, or_iff_right hne]
        · rfl
      rw [hkeep, hkeep]
      exact h front q hq
    · have hiff : ArrivesFirst kept (path ++ [p]) ↔ ArrivesFirst kept' (path ++ [p]) :=
        ⟨h.arrivesFirst hinside hwalk hp, h.symm.arrivesFirst hinside hwalk hp⟩
      by_cases hfirst : ArrivesFirst kept (path ++ [p])
      · rw [if_pos hfirst, if_pos (hiff.1 hfirst), List.mem_cons, List.mem_cons, h front q hq]
      · rw [if_neg hfirst, if_neg (hfirst ∘ hiff.2)]
        exact h front q hq

end

end AgreeOutside

end Graph

namespace Detector

section
variable {d : Detector} {g : Graph} {roots : List Package} {root p q : Package}
  {s : Search} {w : List Package} {c : Cycle}

/-- Between two roots, walks have arrived at all dependencies of the packages where walks have
arrived, apart from packages that depend on nothing. -/
theorem FollowsRoots.exists_arrival (h : FollowsRoots d g roots s) (h' : Progress d g roots s)
    (hdepth : g.packageCount ≤ d.maxDepth)
    (hp : ∃ w ∈ g.arrivals d.maxDepth roots, w.getLast? = some p) (hedge : g.hasEdge p q)
    (hq : q ∈ g.packages) : ∃ w ∈ g.arrivals d.maxDepth roots, w.getLast? = some q := by
  obtain ⟨done, hdone, -⟩ := h'.exists_finished
  have hfits := h.coherent.fits
  rw [h.coherent.path_eq_nil h.rest] at hfits
  have hpdone : p ∈ done := by
    rw [← hdone.mem_iff]
    cases hst : s.findings.status p with
    | untouched => exact absurd hst ((h.tracks p).2 hp)
    | onPath => exact nomatch (hfits.onPath_iff p).1 hst
    | finished => rfl
  have hqdone : q ∈ done := hdone.order.mem_of_reaches
    (fun p q hq => Graph.hasRoom_of_packageCount_le hdepth hq)
    (fun p q => hdone.mem_of_closes hfits) (.edge hedge) hq hpdone
  refine (h.tracks q).1 ?_
  rw [(hdone.mem_iff q).2 hqdone]
  exact nofun

/-- One more root of the search over all roots adds walks that a fresh search from it takes. -/
theorem FollowsRoots.mem_arrivals_singleton (h : FollowsRoots d g roots s)
    (h' : Progress d g roots s) (hdepth : g.packageCount ≤ d.maxDepth)
    (hw : w ∈ g.arrivals d.maxDepth (roots ++ [root])) (hold : w ∉ g.arrivals d.maxDepth roots)
    (hlast : w.getLast? = some p) (hp : p ∈ g.packages) : w ∈ g.arrivals d.maxDepth [root] := by
  let inside (p : Package) : Prop :=
    (∃ w ∈ g.arrivals d.maxDepth roots, w.getLast? = some p) ∨ p ∉ g.packages
  have hinside : ∀ p q, inside p → g.hasEdge p q → inside q := by
    rintro p q (hp | hp) hedge
    · by_cases hq : q ∈ g.packages
      · exact .inl (h.exists_arrival h' hdepth hp hedge hq)
      · exact .inr hq
    · exact absurd (Graph.mem_packages.2 ⟨q, hedge⟩) hp
  have hstart : Graph.AgreeOutside inside (g.arrivals d.maxDepth roots) [] := fun path p hp =>
    ⟨fun hmem => absurd (.inl ⟨_, hmem, List.getLast?_concat⟩) hp, nofun⟩
  have hwalks : ∀ w ∈ g.walks d.maxDepth [] root, w ≠ [] ∧ g.IsPath w := fun w hw =>
    Graph.isPath_of_mem_walks .nil (fun q hq => nomatch hq) hw
  have hagree := hstart.firstArrivals hinside hwalks
  rw [← Graph.arrivals_concat, ← Graph.arrivals_singleton] at hagree
  obtain ⟨path, rfl⟩ := List.getLast?_eq_some_iff.1 hlast
  refine (hagree path p ?_).1 hw
  rintro (⟨v, hv, hvp⟩ | hnot)
  -- A walk that arrived at `p` before is still there, and no other arrives at `p`.
  · have hv' := Graph.arrivals_concat g d.maxDepth roots root ▸ Graph.subset_firstArrivals _ _ hv
    have heq := (g.arrived_arrivals d.maxDepth (roots ++ [root])).eq_of_getLast?_eq hv' hw
      (hvp.trans hlast.symm)
    exact hold (heq ▸ hv)
  · exact hnot hp

/-- Every walk of the search over all roots to a package that depends on something is one of the
fresh search from some root. -/
theorem exists_mem_arrivals_singleton (hpos : 0 < d.maxDepth) (hdepth : g.packageCount ≤ d.maxDepth)
    (hw : w ∈ g.arrivals d.maxDepth g.packages) (hlast : w.getLast? = some p)
    (hp : p ∈ g.packages) : ∃ root ∈ g.packages, w ∈ g.arrivals d.maxDepth [root] := by
  have hnext : ∀ {roots root s}, FollowsRoots d g roots s → Progress d g roots s →
      (∀ w p, w ∈ g.arrivals d.maxDepth roots → w.getLast? = some p → p ∈ g.packages →
        ∃ root ∈ roots, w ∈ g.arrivals d.maxDepth [root]) →
      ∀ w p, w ∈ g.arrivals d.maxDepth (roots ++ [root]) → w.getLast? = some p → p ∈ g.packages →
        ∃ root' ∈ roots ++ [root], w ∈ g.arrivals d.maxDepth [root'] := by
    intro roots root s hfollows hprogress ih w p hw hlast hp
    by_cases hold : w ∈ g.arrivals d.maxDepth roots
    · obtain ⟨root', hroot', hw⟩ := ih w p hold hlast hp
      exact ⟨root', List.mem_append_left _ hroot', hw⟩
    · exact ⟨root, by simp, hfollows.mem_arrivals_singleton hprogress hdepth hw hold hlast hp⟩
  have hshared := sharedSearch_induction (d := d) (g := g)
    (P := fun roots s => roots.Nodup → FollowsRoots d g roots s ∧ Progress d g roots s ∧
      ∀ w p, w ∈ g.arrivals d.maxDepth roots → w.getLast? = some p → p ∈ g.packages →
        ∃ root ∈ roots, w ∈ g.arrivals d.maxDepth [root])
    (fun _ => ⟨.start d g, .start, fun w p hw => nomatch hw⟩)
    (fun roots root s ih hst hnodup => ?_) (fun roots root s ih _ hnodup => ?_)
  · exact (hshared (Ordered.isOrdered_ofList _).nodup).2.2 w p hw hlast hp
  · obtain ⟨hroot, hnodup⟩ := (List.nodup_concat roots root).1 (by simpa using hnodup)
    obtain ⟨hfollows, hprogress, hwalks⟩ := ih hnodup
    exact ⟨hfollows.skip hroot hst, hprogress.skip hst, hnext hfollows hprogress hwalks⟩
  · obtain ⟨hroot, hnodup⟩ := (List.nodup_concat roots root).1 (by simpa using hnodup)
    obtain ⟨hfollows, hprogress, hwalks⟩ := ih hnodup
    exact ⟨hfollows.run hroot, hprogress.run hpos root, hnext hfollows hprogress hwalks⟩

/-- A cycle that the search over all roots finds is found by the fresh search from some root. -/
theorem exists_mem_rootCycles_of_mem_sharedSearch (hpos : 0 < d.maxDepth)
    (hdepth : g.packageCount ≤ d.maxDepth) (hc : c ∈ (d.sharedSearch g).cycles) :
    ∃ root ∈ g.packages, c ∈ d.rootCycles g root := by
  obtain ⟨w, hw, hc⟩ := List.mem_flatMap.1 ((sharedSearch_cycles_perm d g).mem_iff.1 hc)
  obtain ⟨p, hp, q, -, hedge, -⟩ := Graph.mem_closings.1 hc
  obtain ⟨root, hroot, hw⟩ :=
    exists_mem_arrivals_singleton hpos hdepth hw hp (Graph.mem_packages.2 ⟨q, hedge⟩)
  rw [Graph.arrivals_singleton] at hw
  exact ⟨root, hroot, (rootCycles_perm d g root).mem_iff.2 (List.mem_flatMap.2 ⟨w, hw, hc⟩)⟩

end

/-- If no name holds a NUL byte and the bound is not lower than the number of packages that depend on
something, every cycle that the shared traversal reports has a rotation that the per-root traversal
reports. -/
theorem shared_detect_isRotation_perRoot (g : Graph) (maxDepth : Int)
    (hnul : ∀ p ∈ g.nodes, (0 : UInt8) ∉ p) (hdepth : (g.packageCount : Int) ≤ maxDepth) (c : Cycle)
    (hc : c ∈ (Detector.new maxDepth .shared).detect g) :
    ∃ r ∈ (Detector.new maxDepth .perRoot).detect g, c.IsRotation r := by
  have hpos : 0 < max 1 maxDepth.toNat := by omega
  have hdepth : g.packageCount ≤ max 1 maxDepth.toNat := by omega
  obtain ⟨root, hroot, hc⟩ := exists_mem_rootCycles_of_mem_sharedSearch
    (d := .new maxDepth .shared) hpos hdepth hc
  exact exists_isRotation_perRoot (d := .new maxDepth .perRoot) rfl hnul hroot hc

/-- Two pairs of packages that depend on each other. The second pair also depends on the first. -/
def layeredPairs : Graph :=
  .build [⟨"a", ["b"]⟩, ⟨"b", ["a"]⟩, ⟨"c", ["a", "d"]⟩, ⟨"d", ["b", "c"]⟩]

/-- The shared traversal has finished the first pair when it finds the second one, and the search
from `c` enters the first pair again. -/
theorem shared_detect_isRotation_perRoot_layeredPairs :
    (∀ p ∈ layeredPairs.nodes, (0 : UInt8) ∉ p) ∧ (layeredPairs.packageCount : Int) ≤ 4 ∧
      (["c", "d", "c"] : Cycle) ∈ (new 4 .shared).detect layeredPairs ∧
      ∃ r ∈ (new 4 .perRoot).detect layeredPairs, Cycle.IsRotation ["c", "d", "c"] r :=
  have hnul : ∀ p ∈ layeredPairs.nodes, (0 : UInt8) ∉ p := by decide +kernel
  have hdepth : (layeredPairs.packageCount : Int) ≤ 4 := by decide +kernel
  have hfound : (["c", "d", "c"] : Cycle) ∈ (new 4 .shared).detect layeredPairs := by
    decide +kernel
  ⟨hnul, hdepth, hfound, shared_detect_isRotation_perRoot layeredPairs 4 hnul hdepth _ hfound⟩

end Detector

end PackageCycles
