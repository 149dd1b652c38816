import Mathlib.Data.List.Perm.Subperm
import PackageCycles.Detector
import PackageCycles.Proofs.Search.Recursion

/-!
# A bound that never binds

A path without repetition visits at most as many packages that depend on something as there are. So
within a bound that is not lower, no such package is ever passed over for want of room. Other
packages may be: with the one bound they are entered and finished at once, with the other they stay
untouched. This shows in nothing else, because they have no dependencies and close no cycle.

Two explorations with ample room keep to the same findings up to the status of those packages
(`Findings.Agree`, `Findings.explore_agree`), and so do two searches over all roots
(`Search.Match.run`). Hence all bounds that are not lower than the number of packages that depend on
something make the detector report the same cycles in the same order
(`Detector.detect_eq_of_packageCount_le`).
-/

namespace PackageCycles

namespace Findings

/-- The same cycles, and the same status of every package that depends on something. -/
structure Agree (g : Graph) (f f' : Findings) : Prop where
  /-- The cycles are the same, in the same order. -/
  cycles_eq : f.cycles = f'.cycles
  /-- The packages with dependencies have the same status. -/
  status_eq : ∀ p ∈ g.packages, f.status p = f'.status p

namespace Agree

section
variable {g : Graph} {f f' f'' : Findings} {p : Package}

theorem refl (g : Graph) (f : Findings) : Agree g f f := ⟨rfl, fun _ _ => rfl⟩

theorem symm (h : Agree g f f') : Agree g f' f :=
  ⟨h.cycles_eq.symm, fun p hp => (h.status_eq p hp).symm⟩

theorem trans (h : Agree g f f') (h' : Agree g f' f'') : Agree g f f'' :=
  ⟨h.cycles_eq.trans h'.cycles_eq, fun p hp => (h.status_eq p hp).trans (h'.status_eq p hp)⟩

/-- Giving a package the same status on both sides. -/
theorem mark (h : Agree g f f') (p : Package) (m : Status) :
    Agree g (f.mark p m) (f'.mark p m) := by
  refine ⟨h.cycles_eq, fun q hq => ?_⟩
  rw [status_mark, status_mark, h.status_eq q hq]

/-- The status of a package without dependencies does not count. -/
theorem mark_left (h : Agree g f f') (hp : p ∉ g.packages) (m : Status) :
    Agree g (f.mark p m) f' := by
  refine ⟨h.cycles_eq, fun q hq => ?_⟩
  have hne : q ≠ p := fun heq => hp (heq ▸ hq)
  rw [status_mark, if_neg hne, h.status_eq q hq]

end

end Agree

section
variable {g : Graph} {path : List Package} {f f' : Findings} {p : Package}

/-- Exploring a package without dependencies finds nothing, whatever the room. -/
theorem explore_agree_self (hp : p ∉ g.packages) (hst : f.status p ≠ .onPath) (room : Nat)
    (path : List Package) : Agree g (explore g room path f p) f := by
  match hstatus : f.status p with
  | .onPath => exact absurd hstatus hst
  | .finished =>
    rw [explore_of_finished hstatus]
    exact .refl g f
  | .untouched =>
    cases room with
    | zero =>
      rw [explore_zero hstatus]
      exact .refl g f
    | succ room =>
      rw [explore_succ hstatus, Graph.dependencies_eq_nil_of_notMem_packages hp]
      exact ((Agree.refl g f).mark_left hp .onPath).mark_left hp .finished

/-- While there is room for all packages with dependencies, there is room for one that is not yet on
the path. -/
theorem room_pos_of_ample {room : Nat} (hroom : g.packageCount ≤ path.length + room)
    (hsubset : path ++ [p] ⊆ g.packages) (hnodup : (path ++ [p]).Nodup) : 0 < room := by
  have hlen : (path ++ [p]).length ≤ g.packageCount := (hnodup.subperm hsubset).length_le
  rw [List.length_append, List.length_singleton] at hlen
  omega

/-- Explorations one after the other keep to the same findings if each of them does. -/
theorem foldl_explore_agree {room room' : Nat}
    (hexplore : ∀ (f f' : Findings) (q : Package), Fits g path f → Fits g path f' → Agree g f f' →
      (∀ u ∈ path.getLast?, g.hasEdge u q) →
      Agree g (explore g room path f q) (explore g room' path f' q)) :
    ∀ (rest : List Package) (f f' : Findings), (∀ q ∈ rest, ∀ u ∈ path.getLast?, g.hasEdge u q) →
      Fits g path f → Fits g path f' → Agree g f f' →
      Agree g (rest.foldl (explore g room path) f) (rest.foldl (explore g room' path) f')
  | [], _, _, _, _, _, h => h
  | q :: rest, f, f', hedges, hfits, hfits', h =>
    foldl_explore_agree hexplore rest _ _ (fun r hr => hedges r (List.mem_cons_of_mem _ hr))
      (hfits.explore room q) (hfits'.explore room' q)
      (hexplore f f' q hfits hfits' h (hedges q List.mem_cons_self))

/-- Explorations from the same path, each with room for all packages that depend on something, keep
to the same findings. -/
theorem explore_agree : ∀ {room room' : Nat} {path : List Package} {f f' : Findings} {p : Package},
    g.packageCount ≤ path.length + room → g.packageCount ≤ path.length + room' →
    path ⊆ g.packages → Fits g path f → Fits g path f' → Agree g f f' →
    (∀ q ∈ path.getLast?, g.hasEdge q p) →
    Agree g (explore g room path f p) (explore g room' path f' p)
  | room, room', path, f, f', p, hroom, hroom', hpath, hfits, hfits', h, hedge => by
    by_cases hp : p ∈ g.packages
    · have hst' : f'.status p = f.status p := (h.status_eq p hp).symm
      match hst : f.status p with
      | .onPath =>
        rw [explore_of_onPath hst, explore_of_onPath (hst'.trans hst)]
        exact ⟨by rw [h.cycles_eq], h.status_eq⟩
      | .finished =>
        rw [explore_of_finished hst, explore_of_finished (hst'.trans hst)]
        exact h
      | .untouched =>
        have hextend := hfits.extend hst hedge
        have hextend' := hfits'.extend (hst'.trans hst) hedge
        have hsubset : path ++ [p] ⊆ g.packages :=
          List.append_subset.2 ⟨hpath, List.cons_subset.2 ⟨hp, List.nil_subset _⟩⟩
        obtain ⟨room, rfl⟩ := Nat.exists_eq_add_one.2
          (room_pos_of_ample hroom hsubset hextend.nodup)
        obtain ⟨room', rfl⟩ := Nat.exists_eq_add_one.2
          (room_pos_of_ample hroom' hsubset hextend.nodup)
        have hlen : (path ++ [p]).length = path.length + 1 := by
          rw [List.length_append, List.length_singleton]
        rw [explore_succ hst, explore_succ (hst'.trans hst)]
        refine Agree.mark (foldl_explore_agree (fun f f' q hfits hfits' h hedge =>
          explore_agree (by omega) (by omega) hsubset hfits hfits' h hedge) (g.dependencies p) _ _
          (fun q hq u hu => ?_) hextend hextend' (h.mark p .onPath)) p .finished
        rw [List.getLast?_concat, Option.mem_some_iff] at hu
        exact hu ▸ Graph.hasEdge_iff_mem_dependencies.2 hq
    · -- Only packages with dependencies are on the path.
      have hst : f.status p ≠ .onPath := fun hst => hp (hpath ((hfits.onPath_iff p).1 hst))
      have hst' : f'.status p ≠ .onPath := fun hst => hp (hpath ((hfits'.onPath_iff p).1 hst))
      exact (explore_agree_self hp hst room path).trans
        (h.trans (explore_agree_self hp hst' room' path).symm)

end

end Findings

namespace Search

/-- Two searches at rest, each within its own bound, that have found out the same up to the status
of packages without dependencies. -/
structure Match (g : Graph) (n n' : Nat) (s s' : Search) : Prop where
  /-- The parts of the first state agree. -/
  coherent : Coherent g n s
  /-- Its path is empty. -/
  rest : s.stack = []
  /-- The parts of the second state agree. -/
  coherent' : Coherent g n' s'
  /-- Its path is empty. -/
  rest' : s'.stack = []
  /-- They have found out the same. -/
  agree : Findings.Agree g s.findings s'.findings

section
variable {g : Graph} {n n' : Nat} {s s' : Search}

theorem Match.start (g : Graph) (n n' : Nat) : Match g n n' .start .start :=
  ⟨.start g n, rfl, .start g n', rfl, .refl g _⟩

/-- Searching from one more root within ample bounds. -/
theorem Match.run (h : Match g n n' s s') (hn : g.packageCount ≤ n) (hn' : g.packageCount ≤ n')
    (root : Package) : Match g n n' (s.run g n root) (s'.run g n' root) := by
  obtain ⟨hcoherent, hrest⟩ := h.coherent.run h.rest root
  obtain ⟨hcoherent', hrest'⟩ := h.coherent'.run h.rest' root
  refine ⟨hcoherent, hrest, hcoherent', hrest', ?_⟩
  have hfits := h.coherent.fits
  have hfits' := h.coherent'.fits
  rw [h.coherent.path_eq_nil h.rest] at hfits
  rw [h.coherent'.path_eq_nil h.rest'] at hfits'
  rw [run_eq_explore h.coherent h.rest, run_eq_explore h.coherent' h.rest']
  exact Findings.explore_agree (by simpa using hn) (by simpa using hn') (List.nil_subset _) hfits
    hfits' h.agree fun q hq => nomatch hq

end

end Search

namespace Detector

section
variable {d d' : Detector} {g : Graph}

/-- Searches of their own within ample bounds find the same cycles. -/
theorem rootCycles_eq (hd : g.packageCount ≤ d.maxDepth) (hd' : g.packageCount ≤ d'.maxDepth)
    (root : Package) : d.rootCycles g root = d'.rootCycles g root :=
  ((Search.Match.start g d.maxDepth d'.maxDepth).run hd hd' root).agree.cycles_eq

/-- Searches over all roots within ample bounds find out the same. -/
theorem match_sharedSearch (hd : g.packageCount ≤ d.maxDepth) (hd' : g.packageCount ≤ d'.maxDepth) :
    Search.Match g d.maxDepth d'.maxDepth (d.sharedSearch g) (d'.sharedSearch g) := by
  refine List.foldl_rel (.start g d.maxDepth d'.maxDepth) fun root hroot s s' h => ?_
  have hst : s.status root = s'.status root := h.agree.status_eq root hroot
  rw [hst]
  split
  · exact h
  · exact h.run hd hd' root

/-- All bounds that are at least 1 and not lower than the number of packages that depend on
something give the same cycles in the same order, in every traversal. -/
theorem detect_eq_of_packageCount_le (g : Graph) (traversal : Traversal) {maxDepth maxDepth' : Int}
    (h : max 1 (g.packageCount : Int) ≤ maxDepth) (h' : max 1 (g.packageCount : Int) ≤ maxDepth') :
    (Detector.new maxDepth traversal).detect g = (Detector.new maxDepth' traversal).detect g := by
  have hd : g.packageCount ≤ (Detector.new maxDepth traversal).maxDepth := by
    show g.packageCount ≤ max 1 maxDepth.toNat
    omega
  have hd' : g.packageCount ≤ (Detector.new maxDepth' traversal).maxDepth := by
    show g.packageCount ≤ max 1 maxDepth'.toNat
    omega
  have hroot : (Detector.new maxDepth traversal).rootCycles g =
      (Detector.new maxDepth' traversal).rootCycles g := funext (rootCycles_eq hd hd')
  cases traversal with
  | perRoot =>
    show distinct [] (g.packages.flatMap _) = distinct [] (g.packages.flatMap _)
    rw [hroot]
  | shared | unnamed => exact (match_sharedSearch hd hd').agree.cycles_eq

/-- Two packages that depend on each other, and one of them on a third one. -/
def tailedPair : Graph := .build [⟨"a", ["b"]⟩, ⟨"b", ["a", "c"]⟩]

/-- A bound of two leaves out the third package and a bound of nine does not, with the same cycle in
either traversal. -/
theorem detect_eq_of_packageCount_le_tailedPair :
    max 1 (tailedPair.packageCount : Int) ≤ 2 ∧ max 1 (tailedPair.packageCount : Int) ≤ 9 ∧
      (new 2 .shared).detect tailedPair = [(["a", "b", "a"] : Cycle)] ∧
      (new 9 .shared).detect tailedPair = [(["a", "b", "a"] : Cycle)] ∧
      (new 2 .perRoot).detect tailedPair = [(["a", "b", "a"] : Cycle)] ∧
      (new 9 .perRoot).detect tailedPair = [(["a", "b", "a"] : Cycle)] := by
  have htwo : max 1 (tailedPair.packageCount : Int) ≤ 2 := by decide +kernel
  have hnine : max 1 (tailedPair.packageCount : Int) ≤ 9 := by decide +kernel
  have hshared : (new 2 .shared).detect tailedPair = [(["a", "b", "a"] : Cycle)] := by
    decide +kernel
  have hperRoot : (new 2 .perRoot).detect tailedPair = [(["a", "b", "a"] : Cycle)] := by
    decide +kernel
  exact ⟨htwo, hnine, hshared,
    (detect_eq_of_packageCount_le tailedPair .shared hnine htwo).trans hshared, hperRoot,
    (detect_eq_of_packageCount_le tailedPair .perRoot hnine htwo).trans hperRoot⟩

end

end Detector

end PackageCycles
