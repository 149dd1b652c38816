import Mathlib.Data.List.Perm.Subperm
import Mathlib.Data.List.TakeWhile
import PackageCycles.Proofs.Detection.Soundness
import PackageCycles.Proofs.Search.Recursion

/-!
# Every cycle holds a closing edge

A search that finishes a package has looked at all its dependencies: each closed a cycle, was
finished before, or was passed over for want of room. An edge cannot be passed over if every path
without repetition that ends with it is within the bound (`Graph.HasRoom`). So in the order in which
packages are finished, every edge with room leads to a package finished earlier, unless it closed a
cycle (`Findings.FinishOrder`). A closed walk cannot lead to earlier packages all the way round,
hence if its steps have room one of them closed a reported cycle
(`Detector.exists_step_closes_of_hasRoom`). While the bound is not lower than the number of packages
that depend on something, all edges between such packages have room
(`Graph.hasRoom_of_packageCount_le`).
-/

namespace PackageCycles

namespace Graph

/-- Every path without repetition that ends with the edge from `p` to `q` has at most `n`
packages. -/
def HasRoom (g : Graph) (n : Nat) (p q : Package) : Prop :=
  ∀ path : List Package, g.IsPath (path ++ [p, q]) → (path ++ [p, q]).Nodup → path.length + 2 ≤ n

/-- A path without repetition that cannot be extended for want of room ends with an edge that has
none. -/
theorem IsPath.not_hasRoom {g : Graph} {path : List Package} {u p : Package}
    (h : g.IsPath (path ++ [p])) (hnodup : (path ++ [p]).Nodup) (hu : u ∈ path.getLast?) :
    ¬ g.HasRoom path.length u p := by
  intro hroom
  have hpath : path = path.dropLast ++ [u] := (List.dropLast_append_getLast? u hu).symm
  have hsplit : path ++ [p] = path.dropLast ++ [u, p] := by
    conv_lhs => rw [hpath]
    simp
  have hlen := congrArg List.length hpath
  rw [List.length_append, List.length_singleton] at hlen
  rw [hsplit] at h hnodup
  have := hroom path.dropLast h hnodup
  omega

/-- Within a bound that is not lower than the number of packages with dependencies, there is room
for every edge to such a package. -/
theorem hasRoom_of_packageCount_le {g : Graph} {n : Nat} {p q : Package}
    (hn : g.packageCount ≤ n) (hq : q ∈ g.packages) : g.HasRoom n p q := by
  intro path hpath hnodup
  have hsubset : path ++ [p, q] ⊆ g.packages := fun r hr => by
    rw [List.append_cons path p [q]] at hpath hr
    rcases List.mem_append.1 hr with hr | hr
    · exact (hpath.reaches_concat hr).mem_packages
    · rw [List.mem_singleton.1 hr]
      exact hq
  have hlen := (hnodup.subperm hsubset).length_le
  rw [List.length_append] at hlen
  exact Nat.le_trans hlen hn

end Graph

namespace Cycle.IsClosedWalk

section
variable {g : Graph} {c : Cycle}

/-- A graph with a closed walk has a package with dependencies. -/
theorem packageCount_pos (h : c.IsClosedWalk g) : 0 < g.packageCount := by
  obtain ⟨p, rest, rfl, -⟩ := h.exists_eq_cons
  exact List.length_pos_of_mem (h.mem_packages List.mem_cons_self)

/-- There is room for the steps of a closed walk within a bound that is not lower than the number of
packages with dependencies. -/
theorem hasRoom (h : c.IsClosedWalk g) {n : Nat} (hn : g.packageCount ≤ n) :
    ∀ e ∈ c.steps, g.HasRoom n e.source e.target := by
  intro e he
  have htarget : e.target ∈ c := List.mem_of_mem_tail (mem_of_mem_steps he).2
  exact Graph.hasRoom_of_packageCount_le hn (h.mem_packages htarget)

end

end Cycle.IsClosedWalk

namespace Findings

/-- One of the cycles is closed by the edge. -/
def Closes (cycles : List Cycle) (p q : Package) : Prop :=
  ∃ c ∈ cycles, c.closingEdge? = some ⟨p, q⟩

/-- If there is room for the edge, it closed a cycle or leads to one of `done`. -/
def Settled (g : Graph) (n : Nat) (cycles : List Cycle) (done : List Package) (p q : Package) :
    Prop :=
  g.HasRoom n p q → Closes cycles p q ∨ q ∈ done

/-- The edges of each package of the list, the package finished last first, are settled by the
cycles and the packages finished earlier. -/
def FinishOrder (g : Graph) (n : Nat) (cycles : List Cycle) : List Package → Prop
  | [] => True
  | p :: done =>
    (∀ q ∈ g.dependencies p, Settled g n cycles done p q) ∧ FinishOrder g n cycles done

section
variable {g : Graph} {n : Nat} {cycles cycles' : List Cycle} {done done' : List Package}
  {p q : Package}

theorem Settled.mono (hcycles : cycles ⊆ cycles') (hdone : done ⊆ done')
    (h : Settled g n cycles done p q) : Settled g n cycles' done' p q := by
  intro hroom
  rcases h hroom with ⟨c, hc, hpq⟩ | hq
  · exact .inl ⟨c, hcycles hc, hpq⟩
  · exact .inr (hdone hq)

theorem FinishOrder.mono (hcycles : cycles ⊆ cycles') : ∀ {done : List Package},
    FinishOrder g n cycles done → FinishOrder g n cycles' done
  | [], _ => trivial
  | _ :: _, h => ⟨fun q hq => (h.1 q hq).mono hcycles (List.Subset.refl _), h.2.mono hcycles⟩

/-- All edges of finished packages are settled. -/
theorem FinishOrder.settled : ∀ {done : List Package}, FinishOrder g n cycles done → p ∈ done →
    q ∈ g.dependencies p → Settled g n cycles done p q
  | [], _, hp, _ => nomatch hp
  | r :: done, h, hp, hq => by
    have hdone : done ⊆ r :: done := List.subset_cons_self r done
    rcases List.mem_cons.1 hp with rfl | hp
    · exact (h.1 q hq).mono (List.Subset.refl _) hdone
    · exact (h.2.settled hp hq).mono (List.Subset.refl _) hdone

/-- If there is room for all edges between packages with dependencies, and closing edges lead to
finished packages, then all such packages that a finished one reaches are finished. -/
theorem FinishOrder.mem_of_reaches (h : FinishOrder g n cycles done)
    (hroom : ∀ p, ∀ q ∈ g.packages, g.HasRoom n p q)
    (hcloses : ∀ p q, Closes cycles p q → q ∈ done) (hpq : g.Reaches p q) (hq : q ∈ g.packages)
    (hp : p ∈ done) : q ∈ done := by
  have hnext : ∀ {p q}, p ∈ done → g.hasEdge p q → q ∈ g.packages → q ∈ done := by
    intro p q hp hpq hq
    have hsettled := h.settled hp (Graph.hasEdge_iff_mem_dependencies.1 hpq)
    exact (hsettled (hroom p q hq)).elim (hcloses p q) id
  induction hpq with
  | edge hpq => exact hnext hp hpq hq
  | step hpr hrq ih => exact ih hq (hnext hp hpr hrq.mem_packages)

/-- A closed walk through finished packages has a step that closed a cycle, if there is room for its
steps. -/
theorem FinishOrder.exists_closes {c : Cycle} (hc : c.IsClosedWalk g)
    (hroom : ∀ e ∈ c.steps, g.HasRoom n e.source e.target) :
    ∀ {done : List Package}, FinishOrder g n cycles done → (∀ p ∈ c, p ∈ done) →
      ∃ e ∈ c.steps, Closes cycles e.source e.target
  | [], _, hmem => by
    obtain ⟨p, rest, rfl, -⟩ := hc.exists_eq_cons
    exact nomatch hmem p List.mem_cons_self
  | p :: done, h, hmem => by
    by_cases hdone : ∀ q ∈ c, q ∈ done
    · exact h.2.exists_closes hc hroom hdone
    -- The package of the walk that was finished last is `p`, and the step to it cannot lead to an
    -- earlier one.
    · obtain ⟨q, hq, hqdone⟩ : ∃ q ∈ c, q ∉ done := by simpa using hdone
      obtain rfl : q = p := (List.mem_cons.1 (hmem q hq)).resolve_right hqdone
      obtain ⟨u, hu⟩ := hc.exists_step_to hq
      refine ⟨⟨u, q⟩, hu, ?_⟩
      have huq : q ∈ g.dependencies u := Graph.hasEdge_iff_mem_dependencies.1 (hc.walk _ hu)
      have hsettled : Settled g n cycles done u q := by
        rcases List.mem_cons.1 (hmem u (List.dropLast_subset c (Cycle.mem_of_mem_steps hu).1))
          with rfl | hudone
        · exact h.1 u huq
        · exact h.2.settled hudone huq
      exact (hsettled (hroom _ hu)).resolve_right hqdone

end

/-! ## What an exploration finishes -/

/-- The finished packages are those of `done`, which come in the order of finishing. -/
structure Finished (g : Graph) (n : Nat) (done : List Package) (f : Findings) : Prop where
  /-- The packages of the list are finished, and no other. -/
  mem_iff : ∀ p, f.status p = .finished ↔ p ∈ done
  /-- Their edges are settled. -/
  order : FinishOrder g n f.cycles done
  /-- Closing edges lead to packages that have been touched. -/
  touched : ∀ p q, Closes f.cycles p q → f.status q ≠ .untouched

/-- The findings `f'` have settled all that `f` had. -/
structure Extends (g : Graph) (n : Nat) (done : List Package) (f : Findings) (done' : List Package)
    (f' : Findings) : Prop where
  /-- The finished packages come in the order of finishing. -/
  finished : Finished g n done' f'
  /-- What was finished is so still. -/
  done_subset : done ⊆ done'
  /-- No cycle is dropped. -/
  cycles_subset : f.cycles ⊆ f'.cycles

section
variable {g : Graph} {n room : Nat} {path done : List Package} {f : Findings} {p : Package}

theorem Finished.extends_self (h : Finished g n done f) : Extends g n done f done f :=
  ⟨h, List.Subset.refl _, List.Subset.refl _⟩

theorem Extends.trans {done₁ done₂ : List Package} {f₁ f₂ : Findings}
    (h₁ : Extends g n done f done₁ f₁) (h₂ : Extends g n done₁ f₁ done₂ f₂) :
    Extends g n done f done₂ f₂ :=
  ⟨h₂.finished, List.Subset.trans h₁.done_subset h₂.done_subset,
    List.Subset.trans h₁.cycles_subset h₂.cycles_subset⟩

/-- Putting an untouched package on the path finishes none. -/
theorem Finished.mark_onPath (h : Finished g n done f) (hst : f.status p = .untouched) :
    Finished g n done (f.mark p .onPath) where
  mem_iff q := by
    rw [status_mark]
    split
    next hq =>
      rw [hq, ← h.mem_iff p, hst]
      exact ⟨nofun, nofun⟩
    next => exact h.mem_iff q
  order := h.order
  touched u q hc := by
    rw [status_mark]
    split
    next => exact nofun
    next => exact h.touched u q hc

/-- Recording a cycle that is closed by an edge to a touched package finishes no package. -/
theorem Finished.close (h : Finished g n done f) {c : Cycle}
    (hc : ∀ e ∈ c.closingEdge?, f.status e.target ≠ .untouched) :
    Extends g n done f done { f with cycles := f.cycles ++ [c] } where
  finished :=
    { mem_iff := h.mem_iff
      order := h.order.mono (List.subset_append_left _ _)
      touched := fun u q ⟨c', hc', hclosing⟩ => by
        rcases List.mem_append.1 hc' with hc' | hc'
        · exact h.touched u q ⟨c', hc', hclosing⟩
        · rw [List.mem_singleton.1 hc'] at hclosing
          exact hc ⟨u, q⟩ hclosing }
  done_subset := List.Subset.refl _
  cycles_subset := List.subset_append_left _ _

/-- A package whose edges are settled may be finished. -/
theorem Finished.mark_finished (h : Finished g n done f)
    (hp : ∀ q ∈ g.dependencies p, Settled g n f.cycles done p q) :
    Extends g n done f (p :: done) (f.mark p .finished) where
  finished :=
    { mem_iff := fun q => by
        rw [status_mark, List.mem_cons]
        split
        next hq => simp [hq]
        next hq => simp [hq, h.mem_iff q]
      order := ⟨hp, h.order⟩
      touched := fun u q hc => by
        rw [status_mark]
        split
        next => exact nofun
        next => exact h.touched u q hc }
  done_subset := List.subset_cons_self p done
  cycles_subset := List.Subset.refl _

/-- The cycle that a package of the path closes is closed by the edge from the end of the path. -/
theorem exists_closingEdge? (hp : p ∈ path) :
    ∃ u ∈ path.getLast?, Cycle.closingEdge? (path.dropWhile (· ≠ p) ++ [p]) = some ⟨u, p⟩ := by
  obtain ⟨front, hfront⟩ := List.dropWhile_suffix (l := path) (· ≠ p)
  have hne : path.dropWhile (· ≠ p) ≠ [] := fun hnil => by
    simpa using List.dropWhile_eq_nil_iff.1 hnil p hp
  have hlast : path.getLast? = some ((path.dropWhile (· ≠ p)).getLast hne) := by
    rw [← List.getLast?_eq_some_getLast hne]
    conv_lhs => rw [← hfront]
    rw [List.getLast?_append_of_ne_nil _ hne]
  exact ⟨_, hlast, Cycle.closingEdge?_concat (List.getLast?_eq_some_getLast hne)⟩

/-- What an exploration from the end of the path settles: the package explored is finished, or the
edge to it closed a cycle unless there is no room for it. -/
def Arrives (g : Graph) (n : Nat) (path : List Package) (cycles : List Cycle) (done : List Package)
    (p : Package) : Prop :=
  p ∈ done ∨ ∃ u ∈ path.getLast?, g.HasRoom n u p → Closes cycles u p

/-- Exploring the dependencies of the end of the path settles its edges to them, if exploring each
of them does. -/
theorem Finished.foldl_explore {u : Package} (hlast : path.getLast? = some u)
    (hexplore : ∀ f done p, Fits g path f → g.hasEdge u p → Finished g n done f →
      ∃ done', Extends g n done f done' (explore g room path f p) ∧
        Arrives g n path (explore g room path f p).cycles done' p) :
    ∀ (rest : List Package) (f : Findings) (done : List Package), (∀ q ∈ rest, g.hasEdge u q) →
      Fits g path f → Finished g n done f →
      ∃ done', Extends g n done f done' (rest.foldl (explore g room path) f) ∧
        ∀ q ∈ rest, Settled g n (rest.foldl (explore g room path) f).cycles done' u q
  | [], _, done, _, _, h => ⟨done, h.extends_self, fun _ hq => nomatch hq⟩
  | r :: rest, f, done, hedges, hfits, h => by
    obtain ⟨done₁, h₁, harrives⟩ :=
      hexplore f done r hfits (hedges r List.mem_cons_self) h
    obtain ⟨done₂, h₂, hsettled⟩ := Finished.foldl_explore hlast hexplore rest _ done₁
      (fun q hq => hedges q (List.mem_cons_of_mem _ hq)) (hfits.explore room r) h₁.finished
    refine ⟨done₂, h₁.trans h₂, fun q hq => ?_⟩
    rcases List.mem_cons.1 hq with rfl | hq
    · have hq : Settled g n (explore g room path f q).cycles done₁ u q := by
        intro hroom
        rcases harrives with hq | ⟨u', hu', hcloses⟩
        · exact .inr hq
        · rw [hlast, Option.mem_some_iff] at hu'
          subst hu'
          exact .inl (hcloses hroom)
      exact hq.mono h₂.cycles_subset h₂.done_subset
    · exact hsettled q hq

/-- Entering an untouched package finishes it after all that is finished below it, if exploring each
of its dependencies settles the edge to it. -/
theorem Finished.enter (h : Finished g n done f) (hfits : Fits g path f)
    (hedge : ∀ q ∈ path.getLast?, g.hasEdge q p) (hst : f.status p = .untouched)
    (hexplore : ∀ f done q, Fits g (path ++ [p]) f → g.hasEdge p q → Finished g n done f →
      ∃ done', Extends g n done f done' (explore g room (path ++ [p]) f q) ∧
        Arrives g n (path ++ [p]) (explore g room (path ++ [p]) f q).cycles done' q) :
    ∃ done', p ∉ done' ∧ Extends g n done f (p :: done') (explore g (room + 1) path f p) := by
  have hextend := hfits.extend hst hedge
  obtain ⟨done', h', hsettled⟩ := Finished.foldl_explore List.getLast?_concat hexplore
    (g.dependencies p) _ done (fun q hq => Graph.hasEdge_iff_mem_dependencies.2 hq) hextend
    (h.mark_onPath hst)
  have hfits' := hextend.foldl_explore room (g.dependencies p)
  refine ⟨done', fun hp => ?_, ?_⟩
  · have honPath := (hfits'.onPath_iff p).2 (by simp)
    rw [(h'.finished.mem_iff p).2 hp] at honPath
    cases honPath
  · rw [explore_succ hst]
    exact Extends.trans ⟨h'.finished, h'.done_subset, h'.cycles_subset⟩
      (h'.finished.mark_finished hsettled)

/-- An exploration keeps the order of finishing and settles the edge to the package explored. -/
theorem Finished.explore (hn : 0 < n) : ∀ {room : Nat} {path done : List Package} {f : Findings}
    {p : Package}, path.length + room = n → Fits g path f →
    (∀ q ∈ path.getLast?, g.hasEdge q p) → Finished g n done f →
    ∃ done', Extends g n done f done' (explore g room path f p) ∧
      Arrives g n path (Findings.explore g room path f p).cycles done' p
  | room, path, done, f, p, hroom, hfits, hedge, h => by
    match hst : f.status p with
    | .onPath =>
      rw [explore_of_onPath hst]
      obtain ⟨u, hu, hcloses⟩ := exists_closingEdge? ((hfits.onPath_iff p).1 hst)
      refine ⟨done, h.close fun e he => ?_, .inr ⟨u, hu,
        fun _ => ⟨_, List.mem_append_right _ List.mem_cons_self, hcloses⟩⟩⟩
      rw [hcloses, Option.mem_some_iff] at he
      rw [← he, hst]
      exact nofun
    | .finished =>
      rw [explore_of_finished hst]
      exact ⟨done, h.extends_self, .inl ((h.mem_iff p).1 hst)⟩
    | .untouched =>
      cases room with
      | zero =>
        -- The path has reached its greatest length, so it is not empty and the edge from its end
        -- has no room.
        rw [explore_zero hst]
        obtain rfl : path.length = n := hroom
        obtain ⟨u, hu⟩ := Option.isSome_iff_exists.1
          (List.getLast?_isSome.2 (List.ne_nil_of_length_pos hn))
        have hextend := hfits.extend hst hedge
        exact ⟨done, h.extends_self, .inr ⟨u, hu, fun hroom =>
          absurd hroom (hextend.isPath.not_hasRoom hextend.nodup hu)⟩⟩
      | succ room =>
        have hroom' : (path ++ [p]).length + room = n := by
          rw [List.length_append, List.length_singleton]; omega
        obtain ⟨done', -, h'⟩ := h.enter hfits hedge hst fun f done q hfits hpq h =>
          Finished.explore hn hroom' hfits
            (by rw [List.getLast?_concat]; rintro _ ⟨⟩; exact hpq) h
        exact ⟨p :: done', h', .inl List.mem_cons_self⟩

end

end Findings

namespace Detector

section
variable {d : Detector} {g : Graph}

/-- The search over all roots after `roots`: the path is empty, and all of `roots` are finished. -/
structure Progress (d : Detector) (g : Graph) (roots : List Package) (s : Search) : Prop where
  /-- The state is coherent. -/
  coherent : s.Coherent g d.maxDepth
  /-- The path is empty. -/
  stack_eq_nil : s.stack = []
  /-- The finished packages come in the order of finishing, and the roots are among them. -/
  exists_finished : ∃ done, Findings.Finished g d.maxDepth done s.findings ∧ ∀ p ∈ roots, p ∈ done

/-- A search that has not started has finished nothing. -/
theorem finished_start (g : Graph) (n : Nat) :
    Findings.Finished g n [] Search.start.findings where
  mem_iff := by simp [Findings.status, Search.findings, Search.start]
  order := trivial
  touched := by simp [Findings.Closes, Search.findings, Search.start]

theorem Progress.start : Progress d g [] .start :=
  ⟨.start g d.maxDepth, rfl, [], finished_start g d.maxDepth, by simp⟩

/-- A run finishes its root. -/
theorem Progress.run {roots : List Package} {s : Search} (h : Progress d g roots s)
    (hpos : 0 < d.maxDepth) (root : Package) :
    Progress d g (roots ++ [root]) (s.run g d.maxDepth root) := by
  obtain ⟨hcoherent, hs, done, hdone, hroots⟩ := h
  have hfits := hcoherent.fits
  rw [hcoherent.path_eq_nil hs] at hfits
  obtain ⟨done', h', harrives⟩ := hdone.explore (p := root) hpos (Nat.zero_add _) hfits
    (fun q hq => nomatch hq)
  refine ⟨(hcoherent.run hs root).1, (hcoherent.run hs root).2, done', ?_, fun p hp => ?_⟩
  · rw [Search.run_eq_explore hcoherent hs root]
    exact h'.finished
  · rcases List.mem_append.1 hp with hp | hp
    · exact h'.done_subset (hroots p hp)
    · rw [List.mem_singleton.1 hp]
      exact harrives.resolve_right fun ⟨u, hu, _⟩ => nomatch hu

/-- A root that is finished already may be passed over. -/
theorem Progress.skip {roots : List Package} {s : Search} (h : Progress d g roots s)
    {root : Package} (hst : s.status root = .finished) : Progress d g (roots ++ [root]) s := by
  obtain ⟨done, hdone, hroots⟩ := h.exists_finished
  refine ⟨h.coherent, h.stack_eq_nil, done, hdone, fun p hp => ?_⟩
  rcases List.mem_append.1 hp with hp | hp
  · exact hroots p hp
  · rw [List.mem_singleton.1 hp]
    exact (hdone.mem_iff root).1 hst

/-- The search over all roots finishes all of them. -/
theorem exists_finishOrder (hpos : 0 < d.maxDepth) :
    ∃ done, Findings.FinishOrder g d.maxDepth (d.sharedSearch g).cycles done ∧
      ∀ p ∈ g.packages, p ∈ done := by
  obtain ⟨-, -, done, hdone, hroots⟩ := sharedSearch_induction (P := Progress d g) .start
    (fun _ _ _ h hst => h.skip hst) (fun _ root _ h _ => h.run hpos root)
  exact ⟨done, hdone.order, hroots⟩

/-- Every closed walk with room for its steps has a step that closes a cycle of the search over all
roots. -/
theorem exists_step_closes_of_hasRoom (hpos : 0 < d.maxDepth) {c : Cycle} (hc : c.IsClosedWalk g)
    (hroom : ∀ e ∈ c.steps, g.HasRoom d.maxDepth e.source e.target) :
    ∃ e ∈ c.steps, ∃ r ∈ (d.sharedSearch g).cycles, r.closingEdge? = some e := by
  obtain ⟨done, horder, hdone⟩ := exists_finishOrder (g := g) hpos
  exact horder.exists_closes hc hroom fun p hp => hdone p (hc.mem_packages hp)

/-- Every closed walk has a step that closes a cycle of the search over all roots. -/
theorem exists_step_closes (hdepth : g.packageCount ≤ d.maxDepth) {c : Cycle}
    (hc : c.IsClosedWalk g) :
    ∃ e ∈ c.steps, ∃ r ∈ (d.sharedSearch g).cycles, r.closingEdge? = some e :=
  exists_step_closes_of_hasRoom (Nat.lt_of_lt_of_le hc.packageCount_pos hdepth) hc
    (hc.hasRoom hdepth)

/-- While the bound is not lower than the number of packages that depend on something, the closing
edges of the cycles that the shared traversal reports meet every closed walk. So no closed walk is
left without them, every strongly connected component with a closed walk has a reported cycle inside
it, and nothing is reported exactly if the graph is acyclic. -/
theorem shared_detect_complete (g : Graph) (maxDepth : Int)
    (hdepth : (g.packageCount : Int) ≤ maxDepth) :
    (∀ c : Cycle, c.IsClosedWalk g →
      ∃ e ∈ c.steps, ∃ r ∈ (Detector.new maxDepth .shared).detect g, r.closingEdge? = some e) ∧
    (g.filter fun e =>
      e ∉ ((Detector.new maxDepth .shared).detect g).filterMap Cycle.closingEdge?).IsAcyclic ∧
    (∀ (p : Package) (c : Cycle), c.IsClosedWalk g → (∀ q ∈ c, g.SameComponent p q) →
      ∃ r ∈ (Detector.new maxDepth .shared).detect g, ∀ q ∈ r, g.SameComponent p q) ∧
    ((Detector.new maxDepth .shared).detect g = [] ↔ g.IsAcyclic) := by
  have hreport : ∀ r ∈ (Detector.new maxDepth .shared).detect g, r.IsClosedWalk g := fun r hr =>
    ((sound_sharedSearch _ g).isReport r hr).simple.isClosedWalk
  have hcloses : ∀ c : Cycle, c.IsClosedWalk g →
      ∃ e ∈ c.steps, ∃ r ∈ (Detector.new maxDepth .shared).detect g, r.closingEdge? = some e := by
    intro c hc
    refine exists_step_closes ?_ hc
    show g.packageCount ≤ max 1 maxDepth.toNat
    omega
  refine ⟨hcloses, fun c hc => ?_, fun p c hc hp => ?_, fun hnil c hc => ?_, fun hacyclic => ?_⟩
  · have hkept : ∀ e ∈ c.steps, g.hasEdge e.source e.target ∧
        e ∉ ((Detector.new maxDepth .shared).detect g).filterMap Cycle.closingEdge? :=
      fun e he => by simpa only [decide_eq_true_eq] using Graph.hasEdge_filter.1 (hc.walk e he)
    obtain ⟨e, he, r, hr, hre⟩ := hcloses c ⟨hc.two_le, fun e he => (hkept e he).1, hc.closed⟩
    exact (hkept e he).2 (List.mem_filterMap.2 ⟨r, hr, hre⟩)
  · obtain ⟨e, he, r, hr, hre⟩ := hcloses c hc
    refine ⟨r, hr, fun q hq => ?_⟩
    have hsource : e.source ∈ r :=
      List.dropLast_subset r (Cycle.mem_of_mem_steps (List.mem_of_getLast? hre)).1
    have hpe := hp e.source (List.dropLast_subset c (Cycle.mem_of_mem_steps he).1)
    exact hpe.trans (.inr ⟨(hreport r hr).reaches hsource hq, (hreport r hr).reaches hq hsource⟩)
  · obtain ⟨e, -, r, hr, -⟩ := hcloses c hc
    rw [hnil] at hr
    cases hr
  · exact List.eq_nil_iff_forall_not_mem.2 fun r hr => hacyclic r (hreport r hr)

/-- In a ring of three packages with a chord, one of which also depends on a package without
dependencies, the chord or the step before it closes a reported cycle. -/
theorem shared_detect_complete_ring :
    ((Graph.build [⟨"a", ["b"]⟩, ⟨"b", ["c", "d"]⟩, ⟨"c", ["a", "b"]⟩]).packageCount : Int) ≤ 3 ∧
      ∃ e ∈ Cycle.steps ["b", "c", "b"], ∃ r ∈ (new 3 .shared).detect
        (.build [⟨"a", ["b"]⟩, ⟨"b", ["c", "d"]⟩, ⟨"c", ["a", "b"]⟩]), r.closingEdge? = some e :=
  have hdepth : ((Graph.build [⟨"a", ["b"]⟩, ⟨"b", ["c", "d"]⟩,
      ⟨"c", ["a", "b"]⟩]).packageCount : Int) ≤ 3 := by decide +kernel
  ⟨hdepth, (shared_detect_complete _ 3 hdepth).1 ["b", "c", "b"]
    ⟨by decide, by unfold Cycle.IsWalk; decide +kernel, rfl⟩⟩

end

end Detector

end PackageCycles
