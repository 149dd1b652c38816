import Mathlib.Data.List.Nodup
import PackageCycles.Proofs.Detection.RootSearch

/-!
# When a search notices a cycle

A search enters each package once, by the first walk that arrives at it. `Graph.walks` lists all
walks within the bound in the order in which a search without memory would take them: each before
those that go on from it, and these in the order of the next package. `Graph.firstArrivals` goes
through such a list and keeps a walk if the walk without its last package was kept and no walk kept
before ends where it ends. The search takes the walks kept (`Findings.explore_follows`), from one
root or from several (`Detector.FollowsRoots`), and closes the cycles that dependencies of the end
of a walk on the walk itself make (`Graph.closings`). These are all the cycles that it finds, each
as often as it is found (`Detector.rootCycles_perm`, `Detector.sharedSearch_cycles_perm`). A package
that is first arrived at by a long walk is not entered again by a shorter one, so a cycle within the
bound may be missed.
-/

namespace PackageCycles

namespace Graph

/-- The walks that go on from `path` with `p` and up to `n` packages in all: each before those that
go on from it, and these in the order of the next package. -/
def walks (g : Graph) : (n : Nat) → (path : List Package) → Package → List (List Package)
  | 0, _, _ => []
  | n + 1, path, p =>
    (path ++ [p]) :: (g.dependencies p).flatMap (walks g n (path ++ [p]))

/-- What the walk goes on from was kept, and no walk that was kept ends where it ends. -/
def ArrivesFirst (kept : List (List Package)) (walk : List Package) : Prop :=
  (walk.dropLast = [] ∨ walk.dropLast ∈ kept) ∧ ∀ w ∈ kept, w.getLast? ≠ walk.getLast?

instance (kept : List (List Package)) (walk : List Package) : Decidable (ArrivesFirst kept walk) :=
  inferInstanceAs (Decidable (_ ∧ _))

/-- The walks kept before and those of the list that arrive first at their last package. -/
def firstArrivals : (kept : List (List Package)) → List (List Package) → List (List Package)
  | kept, [] => kept
  | kept, walk :: rest =>
    firstArrivals (if ArrivesFirst kept walk then walk :: kept else kept) rest

/-- The walks of up to `n` packages by which a search over the roots first arrives at each
package. -/
def arrivals (g : Graph) (n : Nat) (roots : List Package) : List (List Package) :=
  firstArrivals [] (roots.flatMap (g.walks n []))

/-- The end of the walk depends on a package of the walk. -/
def ClosesCycle (g : Graph) (walk : List Package) : Prop :=
  ∃ p ∈ walk.getLast?, ∃ q ∈ walk, g.hasEdge p q

/-- The cycles that looks from the end of the path at some packages close: one for each that is on
the path. -/
def cuts (path looks : List Package) : List Cycle :=
  (looks.filter (· ∈ path)).map fun q => path.dropWhile (· ≠ q) ++ [q]

/-- The cycles that the dependencies of the end of the walk close. -/
def closings (g : Graph) (walk : List Package) : List Cycle :=
  walk.getLast?.toList.flatMap fun p => cuts walk (g.dependencies p)

section
variable {g : Graph} {kept : List (List Package)} {path walk : List Package} {p : Package} {c : Cycle}

/-- A look closes a cycle if the package is on the path. -/
theorem cuts_of_mem (h : p ∈ path) : cuts path [p] = [path.dropWhile (· ≠ p) ++ [p]] := by
  rw [cuts, List.filter_cons_of_pos (by simpa using h)]
  rfl

/-- A look at a package that is not on the path closes no cycle. -/
theorem cuts_of_notMem (h : p ∉ path) : cuts path [p] = [] := by
  rw [cuts, List.filter_cons_of_neg (by simpa using h)]
  rfl

/-- Looks can be made in two parts. -/
theorem cuts_cons (path : List Package) (p : Package) (looks : List Package) :
    cuts path (p :: looks) = cuts path [p] ++ cuts path looks := by
  rw [cuts, cuts, cuts, ← List.map_append, ← List.filter_append, List.singleton_append]

/-- The cycles that a walk closes are those that the dependencies of its end do. -/
theorem closings_concat (g : Graph) (path : List Package) (p : Package) :
    g.closings (path ++ [p]) = cuts (path ++ [p]) (g.dependencies p) := by
  rw [closings, List.getLast?_concat, Option.toList_some, List.flatMap_singleton]

/-- A cycle that a walk closes leads from a package of the walk along it to its end and back. -/
theorem mem_closings : c ∈ g.closings walk ↔
    ∃ p ∈ walk.getLast?, ∃ q ∈ walk, g.hasEdge p q ∧ c = walk.dropWhile (· ≠ q) ++ [q] := by
  simp only [closings, cuts, List.mem_flatMap, List.mem_map, List.mem_filter, Option.mem_toList,
    decide_eq_true_eq, hasEdge_iff_mem_dependencies]
  constructor
  · rintro ⟨p, hp, q, ⟨hq, hmem⟩, rfl⟩
    exact ⟨p, hp, q, hmem, hq, rfl⟩
  · rintro ⟨p, hp, q, hmem, hq, rfl⟩
    exact ⟨p, hp, q, ⟨hq, hmem⟩, rfl⟩

/-- Walks close cycles together exactly if one of them closes one. -/
theorem flatMap_closings_ne_nil_iff {walks : List (List Package)} :
    walks.flatMap g.closings ≠ [] ↔ ∃ w ∈ walks, g.ClosesCycle w := by
  have hcloses : ∀ w, g.closings w ≠ [] ↔ g.ClosesCycle w := by
    refine fun w => ⟨fun hne => ?_, fun ⟨p, hp, q, hq, hedge⟩ => ?_⟩
    · obtain ⟨c, hc⟩ := List.exists_mem_of_ne_nil _ hne
      obtain ⟨p, hp, q, hq, hedge, -⟩ := mem_closings.1 hc
      exact ⟨p, hp, q, hq, hedge⟩
    · exact List.ne_nil_of_mem (mem_closings.2 ⟨p, hp, q, hq, hedge, rfl⟩)
  simp only [ne_eq, List.flatMap_eq_nil_iff, not_forall, exists_prop, hcloses]

/-- The walks of a list can be gone through in two parts. -/
theorem firstArrivals_append (kept first second : List (List Package)) :
    firstArrivals kept (first ++ second) = firstArrivals (firstArrivals kept first) second := by
  induction first generalizing kept with
  | nil => rfl
  | cons walk rest ih => exact ih _

/-- One more root adds the walks from it that arrive where none has arrived before. -/
theorem arrivals_concat (g : Graph) (n : Nat) (roots : List Package) (root : Package) :
    g.arrivals n (roots ++ [root]) = firstArrivals (g.arrivals n roots) (g.walks n [] root) := by
  rw [arrivals, arrivals, List.flatMap_append, List.flatMap_singleton, firstArrivals_append]

/-- Every walk listed goes on from the path with `p`. -/
theorem prefix_of_mem_walks : ∀ {n : Nat} {path : List Package} {p : Package},
    walk ∈ g.walks n path p → path ++ [p] <+: walk
  | 0, _, _, h => nomatch h
  | n + 1, path, p, h => by
    rcases List.mem_cons.1 h with rfl | h
    · exact List.prefix_refl _
    · obtain ⟨q, -, hq⟩ := List.mem_flatMap.1 h
      exact (List.prefix_append _ _).trans (prefix_of_mem_walks hq)

/-- A walk that has been kept is kept. -/
theorem subset_firstArrivals : ∀ (kept list : List (List Package)), kept ⊆ firstArrivals kept list
  | _, [] => List.Subset.refl _
  | kept, walk :: rest => by
    have hrest := subset_firstArrivals (if ArrivesFirst kept walk then walk :: kept else kept) rest
    refine List.Subset.trans ?_ hrest
    split
    · exact List.subset_cons_self walk kept
    · exact List.Subset.refl _

/-- Where a walk does not arrive first, none that goes on from it is kept either. -/
theorem firstArrivals_eq_self (hkept : ∀ w ∈ kept, ¬ walk <+: w) (hwalk : walk ≠ [])
    (hfirst : ¬ ArrivesFirst kept walk) :
    ∀ {list : List (List Package)}, (∀ w ∈ list, walk <+: w) → firstArrivals kept list = kept
  | [], _ => rfl
  | w :: rest, hlist => by
    have hw : ¬ ArrivesFirst kept w := by
      rintro ⟨hparent, hend⟩
      obtain ⟨t, rfl⟩ := hlist w List.mem_cons_self
      rcases List.eq_nil_or_concat t with rfl | ⟨t, q, rfl⟩
      · rw [List.append_nil] at hparent hend
        exact hfirst ⟨hparent, hend⟩
      · rw [List.concat_eq_append, ← List.append_assoc, List.dropLast_concat] at hparent
        rcases hparent with hnil | hmem
        · exact hwalk (List.append_eq_nil_iff.1 hnil).1
        · exact hkept _ hmem (List.prefix_append _ _)
    rw [firstArrivals, if_neg hw]
    exact firstArrivals_eq_self hkept hwalk hfirst fun w hw => hlist w (List.mem_cons_of_mem _ hw)

end

end Graph

namespace Findings

open PackageCycles.Graph (walks firstArrivals ArrivesFirst cuts)

/-- The packages touched are the ends of the walks kept. -/
def Tracks (kept : List (List Package)) (f : Findings) : Prop :=
  ∀ q, f.status q ≠ .untouched ↔ ∃ w ∈ kept, w.getLast? = some q

/-- From `f` with the walks `kept` the search gets to `f'` with the walks `kept'`, each new one of
which satisfies `P`. It finds the cycles `closed` and those that the new walks close. -/
structure Follows (g : Graph) (P : List Package → Prop) (closed : List Cycle)
    (kept : List (List Package)) (f : Findings) (kept' : List (List Package)) (f' : Findings) :
    Prop where
  /-- The packages touched are the ends of the walks kept. -/
  tracks : Tracks kept' f'
  /-- No walk is dropped. -/
  subset : kept ⊆ kept'
  /-- The new walks are such as `P` says. -/
  mem_or : ∀ w ∈ kept', w ∈ kept ∨ P w
  /-- Each cycle is found as often as it is closed. -/
  cycles_count : ∀ c, f'.cycles.count c + (kept.flatMap g.closings).count c =
    f.cycles.count c + closed.count c + (kept'.flatMap g.closings).count c

section
variable {g : Graph} {P Q : List Package → Prop} {closed closed' : List Cycle}
  {kept kept₁ kept₂ : List (List Package)} {f f₁ f₂ : Findings} {room : Nat} {path : List Package}
  {p : Package}

/-- Nothing happens. -/
theorem Tracks.follows_self (h : Tracks kept f) : Follows g P [] kept f kept f where
  tracks := h
  subset := List.Subset.refl _
  mem_or w hw := .inl hw
  cycles_count c := by rw [List.count_nil, Nat.add_zero]

/-- One stretch of a search after another. -/
theorem Follows.trans (h₁ : Follows g P closed kept f kept₁ f₁)
    (h₂ : Follows g Q closed' kept₁ f₁ kept₂ f₂) :
    Follows g (fun w => P w ∨ Q w) (closed ++ closed') kept f kept₂ f₂ where
  tracks := h₂.tracks
  subset := List.Subset.trans h₁.subset h₂.subset
  mem_or w hw := by
    rcases h₂.mem_or w hw with hw | hw
    · exact (h₁.mem_or w hw).imp_right .inl
    · exact .inr (.inr hw)
  cycles_count c := by
    have hc₁ := h₁.cycles_count c
    have hc₂ := h₂.cycles_count c
    rw [List.count_append]
    omega

/-- The same with a weaker condition on the new walks. -/
theorem Follows.imp (h : Follows g P closed kept f kept₁ f₁) (hP : ∀ w, P w → Q w) :
    Follows g Q closed kept f kept₁ f₁ where
  tracks := h.tracks
  subset := h.subset
  mem_or w hw := (h.mem_or w hw).imp_right (hP w)
  cycles_count := h.cycles_count

/-- Two walks that both go on from a path go on with the same package if they have a common
continuation. -/
theorem eq_of_prefix_concat {q r : Package} {w : List Package} (hq : path ++ [q] <+: w)
    (hr : path ++ [r] <+: w) : q = r := by
  have hlen : (path ++ [q]).length = (path ++ [r]).length := by simp
  have heq := (List.prefix_of_prefix_length_le hq hr (Nat.le_of_eq hlen)).eq_of_length hlen
  simpa using heq

/-- A package that has been touched is not arrived at first. -/
theorem Tracks.not_arrivesFirst (h : Tracks kept f) (hst : f.status p ≠ .untouched) :
    ¬ ArrivesFirst kept (path ++ [p]) := by
  rintro ⟨-, hend⟩
  obtain ⟨w, hw, hwp⟩ := (h p).1 hst
  exact hend w hw (by rw [hwp, List.getLast?_concat])

/-- An untouched package is arrived at first, if what is gone on from was kept. -/
theorem Tracks.arrivesFirst (h : Tracks kept f) (hst : f.status p = .untouched)
    (hpath : path = [] ∨ path ∈ kept) : ArrivesFirst kept (path ++ [p]) := by
  refine ⟨by rwa [List.dropLast_concat], fun w hw heq => ?_⟩
  rw [List.getLast?_concat] at heq
  exact (h p).2 ⟨w, hw, heq⟩ hst

/-- Putting an untouched package on the path, and keeping the walk to it. -/
theorem Tracks.mark_onPath (h : Tracks kept f) :
    Tracks ((path ++ [p]) :: kept) (f.mark p .onPath) := by
  intro q
  rw [status_mark]
  simp only [List.exists_mem_cons_iff, List.getLast?_concat, Option.some.injEq]
  split
  next hq => simp [hq]
  next hq =>
    rw [h q]
    exact ⟨.inr, fun hor => hor.resolve_left fun heq => hq heq.symm⟩

/-- Finishing a package that has been touched touches no other. -/
theorem Tracks.mark_finished (h : Tracks kept f) (hst : f.status p ≠ .untouched) :
    Tracks kept (f.mark p .finished) := by
  intro q
  rw [status_mark]
  split
  next hq => simpa [hq] using (h p).1 hst
  next => exact h q

/-- The search follows the walks that go on from the path, one dependency of its end after the
other, if it does so for each of them. -/
theorem foldl_explore_follows (room : Nat) (path : List Package)
    (hexplore : ∀ (kept : List (List Package)) (f : Findings) (q : Package), Fits g path f →
      (∀ u ∈ path.getLast?, g.hasEdge u q) → Tracks kept f → path ∈ kept →
      (∀ w ∈ kept, ¬ path ++ [q] <+: w) →
      Follows g (fun w => path ++ [q] <+: w) (cuts path [q]) kept f
        (firstArrivals kept (g.walks room path q)) (explore g room path f q)) :
    ∀ (rest : List Package) (kept : List (List Package)) (f : Findings), rest.Nodup →
      (∀ q ∈ rest, ∀ u ∈ path.getLast?, g.hasEdge u q) → Fits g path f → Tracks kept f →
      path ∈ kept → (∀ q ∈ rest, ∀ w ∈ kept, ¬ path ++ [q] <+: w) →
      Follows g (fun w => ∃ q ∈ rest, path ++ [q] <+: w) (cuts path rest) kept f
        (firstArrivals kept (rest.flatMap (g.walks room path)))
        (rest.foldl (explore g room path) f)
  | [], _, _, _, _, _, h, _, _ => h.follows_self
  | r :: rest, kept, f, hnodup, hedges, hfits, h, hpath, hnew => by
    obtain ⟨hr, hnodup⟩ := List.nodup_cons.1 hnodup
    have h₁ := hexplore kept f r hfits (hedges r List.mem_cons_self) h hpath
      (hnew r List.mem_cons_self)
    have h₂ := foldl_explore_follows room path hexplore rest _ _ hnodup
      (fun q hq => hedges q (List.mem_cons_of_mem _ hq)) (hfits.explore room r) h₁.tracks
      (h₁.subset hpath) fun q hq w hw hprefix => by
        rcases h₁.mem_or w hw with hw | hw
        · exact hnew q (List.mem_cons_of_mem _ hq) w hw hprefix
        · exact hr (eq_of_prefix_concat hw hprefix ▸ hq)
    rw [List.flatMap_cons, Graph.firstArrivals_append, Graph.cuts_cons]
    exact (h₁.trans h₂).imp fun w hw => (List.exists_mem_cons_iff _ r rest).2 hw

/-- Putting a package on the path, following the walks that go on from there and leaving it. -/
theorem Follows.enter (hp : p ∉ path) (hst : f₁.status p ≠ .untouched)
    (h : Follows g (fun w => ∃ q ∈ g.dependencies p, path ++ [p] ++ [q] <+: w)
      (cuts (path ++ [p]) (g.dependencies p)) ((path ++ [p]) :: kept) (f.mark p .onPath) kept₁
      f₁) :
    Follows g (fun w => path ++ [p] <+: w) (cuts path [p]) kept f kept₁ (f₁.mark p .finished) where
  tracks := h.tracks.mark_finished hst
  subset := List.Subset.trans (List.subset_cons_self _ _) h.subset
  mem_or w hw := by
    rcases h.mem_or w hw with hw | ⟨q, -, hw⟩
    · rcases List.mem_cons.1 hw with rfl | hw
      · exact .inr (List.prefix_refl _)
      · exact .inl hw
    · exact .inr ((List.prefix_append _ _).trans hw)
  cycles_count c := by
    -- The looks at the dependencies close the cycles of the walk to the package itself.
    have hcount : f₁.cycles.count c + (((path ++ [p]) :: kept).flatMap g.closings).count c =
      f.cycles.count c + (cuts (path ++ [p]) (g.dependencies p)).count c +
        (kept₁.flatMap g.closings).count c := h.cycles_count c
    rw [List.flatMap_cons, Graph.closings_concat, List.count_append] at hcount
    rw [Graph.cuts_of_notMem hp, List.count_nil]
    show f₁.cycles.count c + _ = _
    omega

/-- An exploration follows the walks that go on from the path with the package explored. -/
theorem explore_follows : ∀ (room : Nat) {path : List Package} {kept : List (List Package)}
    {f : Findings} {p : Package}, Fits g path f → (∀ q ∈ path.getLast?, g.hasEdge q p) →
    Tracks kept f → (path = [] ∨ path ∈ kept) → (∀ w ∈ kept, ¬ path ++ [p] <+: w) →
    Follows g (fun w => path ++ [p] <+: w) (cuts path [p]) kept f
      (firstArrivals kept (g.walks room path p)) (explore g room path f p)
  | room, path, kept, f, p, hfits, hedge, h, hpath, hnew => by
    have hpassed (hst : f.status p ≠ .untouched) :
        firstArrivals kept (g.walks room path p) = kept :=
      Graph.firstArrivals_eq_self hnew (by simp) (h.not_arrivesFirst hst)
        fun _ hw => Graph.prefix_of_mem_walks hw
    match hst : f.status p with
    | .onPath =>
      rw [hpassed (by simp [hst]), explore_of_onPath hst,
        Graph.cuts_of_mem ((hfits.onPath_iff p).1 hst)]
      exact ⟨h, List.Subset.refl _, fun w hw => .inl hw, fun c => by rw [List.count_append]⟩
    | .finished =>
      have hp : p ∉ path := fun hp => by rw [(hfits.onPath_iff p).2 hp] at hst; cases hst
      rw [hpassed (by simp [hst]), explore_of_finished hst, Graph.cuts_of_notMem hp]
      exact h.follows_self
    | .untouched =>
      cases room with
      | zero =>
        rw [explore_zero hst, Graph.cuts_of_notMem (hfits.notMem hst)]
        exact h.follows_self
      | succ room =>
        rw [explore_succ hst, walks, firstArrivals, if_pos (h.arrivesFirst hst hpath)]
        have hextend := hfits.extend hst hedge
        have hfold := foldl_explore_follows room (path ++ [p])
          (fun kept f q hfits hedge h hpath hnew =>
            explore_follows room hfits hedge h (.inr hpath) hnew)
          (g.dependencies p) ((path ++ [p]) :: kept) (f.mark p .onPath)
          (g.isOrdered_dependencies p).nodup
          (fun q hq u hu => by
            rw [List.getLast?_concat, Option.mem_some_iff] at hu
            exact hu ▸ Graph.hasEdge_iff_mem_dependencies.2 hq)
          hextend h.mark_onPath List.mem_cons_self
          (fun q _ w hw hprefix => by
            rcases List.mem_cons.1 hw with rfl | hw
            · simpa using hprefix.length_le
            · exact hnew w hw ((List.prefix_append _ _).trans hprefix))
        have hst' : ((g.dependencies p).foldl (explore g room (path ++ [p]))
            (f.mark p .onPath)).status p ≠ .untouched :=
          (hfold.tracks p).2 ⟨path ++ [p], hfold.subset List.mem_cons_self, List.getLast?_concat⟩
        exact hfold.enter (hfits.notMem hst) hst'

end

end Findings

namespace Detector

/-- After the roots, the search is at rest and has taken the walks from them that arrive first. -/
structure FollowsRoots (d : Detector) (g : Graph) (roots : List Package) (s : Search) : Prop where
  /-- The parts of the state agree. -/
  coherent : s.Coherent g d.maxDepth
  /-- No package is on the path. -/
  rest : s.stack = []
  /-- The packages touched are the ends of the walks. -/
  tracks : Findings.Tracks (g.arrivals d.maxDepth roots) s.findings
  /-- Each walk starts with one of the roots. -/
  starts : ∀ w ∈ g.arrivals d.maxDepth roots, ∃ r ∈ roots, [r] <+: w
  /-- The cycles found are those that the walks close. -/
  cycles_perm : s.cycles.Perm ((g.arrivals d.maxDepth roots).flatMap g.closings)

section
variable {d : Detector} {g : Graph} {roots : List Package} {root : Package} {s : Search}

/-- Before the first root nothing has been touched. -/
theorem FollowsRoots.start (d : Detector) (g : Graph) : FollowsRoots d g [] .start where
  coherent := .start g d.maxDepth
  rest := rfl
  tracks q := by simp [Graph.arrivals, Graph.firstArrivals, Findings.status, Search.findings,
    Search.start]
  starts w hw := nomatch hw
  cycles_perm := .nil

/-- Exploring one more root takes the walks from it that arrive first. -/
theorem FollowsRoots.explore (h : FollowsRoots d g roots s) (hroot : root ∉ roots) :
    FollowsRoots d g (roots ++ [root])
      (s.withFindings (Findings.explore g d.maxDepth [] s.findings root)) := by
  have hfits := h.coherent.fits
  rw [h.coherent.path_eq_nil h.rest] at hfits
  have hnew : ∀ w ∈ g.arrivals d.maxDepth roots, ¬ [root] <+: w := fun w hw hprefix => by
    obtain ⟨r, hr, hrw⟩ := h.starts w hw
    have heq : r = root := Findings.eq_of_prefix_concat (show [] ++ [r] <+: w from hrw) hprefix
    exact hroot (heq ▸ hr)
  have hfollows := Findings.explore_follows d.maxDepth hfits (fun q hq => nomatch hq) h.tracks
    (.inl rfl) hnew
  rw [← Graph.arrivals_concat] at hfollows
  refine ⟨h.coherent.explore d.maxDepth [] root, h.rest, hfollows.tracks, fun w hw => ?_,
    List.perm_iff_count.2 fun c => ?_⟩
  · rcases hfollows.mem_or w hw with hw | hw
    · obtain ⟨r, hr, hrw⟩ := h.starts w hw
      exact ⟨r, List.mem_append_left _ hr, hrw⟩
    · exact ⟨root, List.mem_append_right _ List.mem_cons_self, hw⟩
  · have hcount := hfollows.cycles_count c
    have hold : s.findings.cycles.count c = _ := h.cycles_perm.count_eq c
    rw [Graph.cuts_of_notMem List.not_mem_nil, List.count_nil] at hcount
    show (Findings.explore g d.maxDepth [] s.findings root).cycles.count c = _
    omega

/-- A run takes the walks from its root that arrive first. -/
theorem FollowsRoots.run (h : FollowsRoots d g roots s) (hroot : root ∉ roots) :
    FollowsRoots d g (roots ++ [root]) (s.run g d.maxDepth root) := by
  rw [Search.run_eq_explore h.coherent h.rest]
  exact h.explore hroot

/-- No walk arrives first from a root that is finished. -/
theorem FollowsRoots.skip (h : FollowsRoots d g roots s) (hroot : root ∉ roots)
    (hst : s.status root = .finished) : FollowsRoots d g (roots ++ [root]) s := by
  have hnext := h.explore hroot
  rwa [Findings.explore_of_finished (f := s.findings) hst] at hnext

/-- The search over all roots takes the walks from them that arrive first. -/
theorem followsRoots_sharedSearch (d : Detector) (g : Graph) :
    FollowsRoots d g g.packages (d.sharedSearch g) := by
  refine sharedSearch_induction (P := fun roots s => roots.Nodup → FollowsRoots d g roots s)
    (fun _ => .start d g) (fun roots root s ih hst hnodup => ?_)
    (fun roots root s ih _ hnodup => ?_) (Ordered.isOrdered_ofList _).nodup
  · obtain ⟨hroot, hnodup⟩ := (List.nodup_concat roots root).1 (by simpa using hnodup)
    exact (ih hnodup).skip hroot hst
  · obtain ⟨hroot, hnodup⟩ := (List.nodup_concat roots root).1 (by simpa using hnodup)
    exact (ih hnodup).run hroot

/-- The search over all roots finds the cycles that the walks close by which it first arrives at a
package. -/
theorem sharedSearch_cycles_perm (d : Detector) (g : Graph) :
    (d.sharedSearch g).cycles.Perm ((g.arrivals d.maxDepth g.packages).flatMap g.closings) :=
  (followsRoots_sharedSearch d g).cycles_perm

/-- The search from one root finds the cycles that the walks close by which it first arrives at a
package. -/
theorem rootCycles_perm (d : Detector) (g : Graph) (root : Package) :
    (d.rootCycles g root).Perm
      ((Graph.firstArrivals [] (g.walks d.maxDepth [] root)).flatMap g.closings) := by
  have h : FollowsRoots d g ([] ++ [root]) _ := (FollowsRoots.start d g).explore List.not_mem_nil
  have hperm := h.cycles_perm
  rw [Graph.arrivals_concat] at hperm
  rw [rootCycles, Search.run_eq_explore (.start g d.maxDepth) rfl]
  exact hperm

/-- The search from one root finds a cycle exactly if a walk by which it first arrives at a package
closes one. -/
theorem rootCycles_ne_nil_iff : d.rootCycles g root ≠ [] ↔
    ∃ w ∈ Graph.firstArrivals [] (g.walks d.maxDepth [] root), g.ClosesCycle w := by
  rw [ne_eq, ← List.perm_nil, (rootCycles_perm d g root).congr_left, List.perm_nil, ← ne_eq,
    Graph.flatMap_closings_ne_nil_iff]

/-- Leaving out repeated cycles leaves some if there are any. -/
theorem distinct_nil_eq_nil_iff {cycles : List Cycle} : distinct [] cycles = [] ↔ cycles = [] := by
  cases cycles with
  | nil => simp [distinct]
  | cons c rest => simp [distinct]

/-- The per-root traversal reports something exactly if the search from some root finds a cycle. -/
theorem perRoot_detect_ne_nil_iff_rootCycles (hd : d.traversal = .perRoot) :
    d.detect g ≠ [] ↔ ∃ root ∈ g.packages, d.rootCycles g root ≠ [] := by
  rw [detect, hd]
  simp only [ne_eq, distinct_nil_eq_nil_iff, List.flatMap_eq_nil_iff, not_forall, exists_prop]

/-- Within a bound that is not lower than the number of packages with dependencies, the search from
a package of a closed walk finds a cycle. -/
theorem rootCycles_ne_nil (hdepth : g.packageCount ≤ d.maxDepth) {c : Cycle}
    (hc : c.IsClosedWalk g) (hroot : root ∈ c) : d.rootCycles g root ≠ [] := by
  obtain ⟨r, hr, -⟩ := exists_mem_rootCycles hdepth (hc.reaches hroot hroot)
  exact List.ne_nil_of_mem hr

/-- The per-root traversal reports something exactly if, from some root, a walk by which the search
first arrives at a package closes a cycle. If the bound is not lower than the number of packages
that depend on something, this is so whenever the graph has a closed walk. -/
theorem perRoot_detect_ne_nil_iff (g : Graph) (maxDepth : Int) :
    ((Detector.new maxDepth .perRoot).detect g ≠ [] ↔
      ∃ root ∈ g.packages, ∃ w ∈ Graph.firstArrivals [] (g.walks (max 1 maxDepth.toNat) [] root),
        g.ClosesCycle w) ∧
    ((g.packageCount : Int) ≤ maxDepth → ∀ c : Cycle, c.IsClosedWalk g →
      (Detector.new maxDepth .perRoot).detect g ≠ []) := by
  rw [perRoot_detect_ne_nil_iff_rootCycles rfl]
  refine ⟨exists_congr fun root => and_congr_right fun _ => rootCycles_ne_nil_iff,
    fun hdepth c hc => ?_⟩
  obtain ⟨root, rest, rfl, -⟩ := hc.exists_eq_cons
  refine ⟨root, hc.mem_packages List.mem_cons_self, rootCycles_ne_nil ?_ hc List.mem_cons_self⟩
  show g.packageCount ≤ max 1 maxDepth.toNat
  omega

/-- A ring of three packages, with a detour over one more package beside each edge. The detour comes
first in the order of the names. -/
def detourRing : Graph :=
  .build [⟨"d", ["a", "e"]⟩, ⟨"a", ["e"]⟩, ⟨"e", ["b", "f"]⟩, ⟨"b", ["f"]⟩, ⟨"f", ["c", "d"]⟩,
    ⟨"c", ["d"]⟩]

/-- With a bound of all six packages the ring is noticed. -/
theorem perRoot_detect_detourRing_six :
    (detourRing.packageCount : Int) ≤ 6 ∧
      Cycle.IsClosedWalk detourRing ["d", "e", "f", "d"] ∧
      (new 6 .perRoot).detect detourRing ≠ [] :=
  have hdepth : (detourRing.packageCount : Int) ≤ 6 := by decide +kernel
  have hwalk : Cycle.IsClosedWalk detourRing ["d", "e", "f", "d"] :=
    ⟨by decide, by unfold Cycle.IsWalk; decide +kernel, rfl⟩
  ⟨hdepth, hwalk, (perRoot_detect_ne_nil_iff detourRing 6).2 hdepth _ hwalk⟩

/-- With a bound of three the ring of three is missed: from each package of the ring the search
first arrives at the next one by the detour, and has no room left to come round. -/
theorem perRoot_detect_misses_detourRing :
    Cycle.IsSimple detourRing ["d", "e", "f", "d"] ∧ Cycle.size ["d", "e", "f", "d"] ≤ 3 ∧
      (new 3 .perRoot).detect detourRing = [] :=
  ⟨⟨by decide, by unfold Cycle.IsWalk; decide +kernel, rfl, by decide⟩, by decide,
    by decide +kernel⟩

end

end Detector

end PackageCycles
