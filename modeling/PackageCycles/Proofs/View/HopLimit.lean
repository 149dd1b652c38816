import PackageCycles.Proofs.View.Expansion

/-!
# The hop limit of a focused view

Every package in a view of transitive dependencies with a hop limit is within so many hops of the
focus. The converse fails: a package that is first arrived at by the longest walk allowed is drawn
without its dependencies, also if a shorter walk comes to it later
(`View.hasNode_around_misses_lateShortcut`). What is drawn are the ends of the walks of arrival, and
these leave nothing out along a walk on which every package, but for the last one, can only be
arrived at with a hop to spare (`Graph.ArrivesWithin`, `View.hasNode_around_of_isPath`). That is so
for a limit of one hop, and for one that is not lower than the number of packages that depend on
something.
-/

namespace PackageCycles

namespace Graph

/-- A walk of at most `n` edges leads from the one package to the other. -/
def ReachesWithin (g : Graph) (n : Nat) (p q : Package) : Prop :=
  ∃ path, g.IsPath (p :: path) ∧ (p :: path).getLast? = some q ∧ path.length ≤ n

/-- Every path without repetition from the one package to the other has at most `n` packages. -/
def ArrivesWithin (g : Graph) (n : Nat) (p q : Package) : Prop :=
  ∀ path, g.IsPath (p :: path) → (p :: path).Nodup → (p :: path).getLast? = some q →
    (p :: path).length ≤ n

section
variable {g : Graph} {n : Nat} {p q : Package} {path walk : List Package}

/-- Every package of a path but its last one depends on something. -/
theorem IsPath.mem_packages_of_mem_dropLast (h : g.IsPath path) (hp : p ∈ path.dropLast) :
    p ∈ g.packages := by
  induction path using List.reverseRecOn with
  | nil => exact nomatch hp
  | append_singleton path q _ =>
    rw [List.dropLast_concat] at hp
    exact (h.reaches_concat hp).mem_packages

/-- There is an edge from the end of a path to what it is extended by. -/
theorem IsPath.hasEdge_concat (h : g.IsPath (path ++ [q])) (hp : path.getLast? = some p) :
    g.hasEdge p q := by
  have hchain := (List.isChain_append.1 h).2.2
  exact hchain p hp q rfl

/-- The only path without repetition from a package to itself has one package. -/
theorem arrivesWithin_self (g : Graph) (p : Package) : g.ArrivesWithin 1 p p := by
  intro path _ hnodup hlast
  cases path with
  | nil => rfl
  | cons q path =>
    rw [List.getLast?_cons_cons] at hlast
    exact absurd (List.mem_of_getLast? hlast) (List.nodup_cons.1 hnodup).1

/-- A path without repetition to a package that depends on something goes through such packages
only. -/
theorem arrivesWithin_of_packageCount_le (hn : g.packageCount ≤ n) (hq : q ∈ g.packages) :
    g.ArrivesWithin n p q := by
  intro path hpath hnodup hlast
  have hsubset : p :: path ⊆ g.packages := by
    intro r hr
    rw [← List.dropLast_append_getLast? q hlast] at hr
    rcases List.mem_append.1 hr with hr | hr
    · exact hpath.mem_packages_of_mem_dropLast hr
    · rw [List.mem_singleton.1 hr]
      exact hq
  exact Nat.le_trans (hnodup.subperm hsubset).length_le hn

/-- Within one hop, or as many as there are packages that depend on something, a walk leaves every
package but its last one with a hop to spare. -/
theorem arrivesWithin_of_mem_dropLast (hn : n = 1 ∨ g.packageCount ≤ n) (hlen : path.length ≤ n)
    (hpath : g.IsPath (p :: path)) (hq : q ∈ (p :: path).dropLast) : g.ArrivesWithin n p q := by
  rcases hn with rfl | hn
  · have hq : q = p := by
      cases path with
      | nil => exact nomatch hq
      | cons r path =>
        obtain rfl : path = [] := List.eq_nil_of_length_eq_zero (by simpa using hlen)
        simpa using hq
    rw [hq]
    exact arrivesWithin_self g p
  · exact arrivesWithin_of_packageCount_le hn (hpath.mem_packages_of_mem_dropLast hq)

/-- A walk listed has as many packages as are allowed at most. -/
theorem length_le_of_mem_walks : ∀ {n : Nat} {path : List Package} {p : Package},
    walk ∈ g.walks n path p → walk.length ≤ path.length + n
  | 0, _, _, h => nomatch h
  | n + 1, path, p, h => by
    rcases List.mem_cons.1 h with rfl | h
    · simp
    · obtain ⟨q, -, hq⟩ := List.mem_flatMap.1 h
      have hlen := length_le_of_mem_walks hq
      rw [List.length_append, List.length_singleton] at hlen
      omega

/-- A walk that is kept was kept before or is listed. -/
theorem mem_or_mem_of_mem_firstArrivals : ∀ {list kept : List (List Package)},
    walk ∈ firstArrivals kept list → walk ∈ kept ∨ walk ∈ list
  | [], _, h => .inl h
  | w :: rest, kept, h => by
    rw [firstArrivals] at h
    rcases mem_or_mem_of_mem_firstArrivals h with h | h
    · split at h
      · exact (List.mem_cons.1 h).elim (fun heq => .inr (heq ▸ List.mem_cons_self)) .inl
      · exact .inl h
    · exact .inr (List.mem_cons_of_mem _ h)

/-- A search arrives first at the package where it starts. -/
theorem singleton_mem_arrivals (g : Graph) (n : Nat) (p : Package) :
    [p] ∈ g.arrivals (n + 1) [p] := by
  rw [Selection.arrivals_focus]
  exact subset_firstArrivals _ _ List.mem_cons_self

/-- A walk by which a search from a package arrives goes on from it along edges, without repetition,
and has as many packages as are allowed at most. -/
theorem exists_of_mem_arrivals (h : walk ∈ g.arrivals n [p]) :
    ∃ path, walk = p :: path ∧ g.IsPath walk ∧ walk.Nodup ∧ walk.length ≤ n := by
  have harrived := g.arrived_arrivals n [p]
  have hlisted : walk ∈ g.walks n [] p := by
    rw [arrivals_singleton] at h
    exact (mem_or_mem_of_mem_firstArrivals h).resolve_left List.not_mem_nil
  obtain ⟨path, hpath⟩ := prefix_of_mem_walks hlisted
  have hlen := length_le_of_mem_walks hlisted
  refine ⟨path, hpath.symm, (harrived.isPath _ h).2, harrived.nodup h, ?_⟩
  simpa using hlen

/-- A search arrives at a package by a path that is no longer than they all are. -/
theorem ArrivesWithin.length_le {limit : Nat} (h : g.ArrivesWithin n p q)
    (hw : walk ∈ g.arrivals limit [p]) (hlast : walk.getLast? = some q) : walk.length ≤ n := by
  obtain ⟨path, rfl, hpath, hnodup, -⟩ := exists_of_mem_arrivals hw
  exact h path hpath hnodup hlast

/-- With as many hops as there are packages that depend on something, a search arrives at every
package that is reached. -/
theorem exists_arrival_of_reaches (hn : g.packageCount ≤ n) (hq : q = p ∨ g.Reaches p q) :
    ∃ w ∈ g.arrivals (n + 1) [p], w.getLast? = some q := by
  have hstart : ∃ w ∈ g.arrivals (n + 1) [p], w.getLast? = some p :=
    ⟨[p], g.singleton_mem_arrivals n p, rfl⟩
  rcases hq with rfl | hreaches
  · exact hstart
  · refine Reaches.closed (P := fun q => ∃ w ∈ g.arrivals (n + 1) [p], w.getLast? = some q)
      (fun r s hr hedge => ?_) hreaches hstart
    obtain ⟨w, hw, hlast⟩ := hr
    have hwithin : g.ArrivesWithin n p r :=
      arrivesWithin_of_packageCount_le hn (mem_packages.2 ⟨s, hedge⟩)
    exact Selection.exists_arrival_of_hasEdge hw hlast (hwithin.length_le hw hlast) hedge

end

end Graph

namespace View

/-- The view of what a package depends on, directly or through others, with a hop limit. -/
def around (focus : Package) (maxDepth : Int) : View := ⟨focus, .dependencies, true, maxDepth⟩

section
variable {g : Graph} {focus p q : Package} {k : Int} {path : List Package}

/-- The packages drawn are the ends of the walks by which a search from the focus arrives at
packages. -/
theorem hasNode_around_iff (hfocus : focus ≠ "") (hk : 1 ≤ k) :
    ((around focus k).select g).hasNode q ↔
      ∃ w ∈ g.arrivals (k.toNat + 1) [focus], w.getLast? = some q := by
  have hhops : (around focus k).hops g = k.toNat := if_pos (Int.lt_of_lt_of_le Int.zero_lt_one hk)
  have hselect : (around focus k).select g =
      (Selection.focused focus).addDependencies g ((around focus k).hops g) .direct focus :=
    select_of_focus hfocus g
  rw [hselect, hhops]
  exact Selection.hasNode_addDependencies

/-- A package that is drawn is within the hops. -/
theorem reachesWithin_of_hasNode_around (hfocus : focus ≠ "") (hk : 1 ≤ k)
    (hq : ((around focus k).select g).hasNode q) : g.ReachesWithin k.toNat focus q := by
  obtain ⟨w, hw, hlast⟩ := (hasNode_around_iff hfocus hk).1 hq
  obtain ⟨path, rfl, hpath, -, hlen⟩ := Graph.exists_of_mem_arrivals hw
  exact ⟨path, hpath, hlast, Nat.le_of_succ_le_succ hlen⟩

/-- The end of a walk from the focus is drawn if every package before it can only be arrived at with
a hop to spare. -/
theorem hasNode_around_of_isPath (hfocus : focus ≠ "") (hk : 1 ≤ k)
    (hpath : g.IsPath (focus :: path)) (hlast : (focus :: path).getLast? = some q)
    (hspare : ∀ p ∈ (focus :: path).dropLast, g.ArrivesWithin k.toNat focus p) :
    ((around focus k).select g).hasNode q := by
  rw [hasNode_around_iff hfocus hk]
  induction path using List.reverseRecOn generalizing q with
  | nil =>
    obtain rfl : focus = q := by simpa using hlast
    exact ⟨[focus], Graph.singleton_mem_arrivals g k.toNat focus, rfl⟩
  | append_singleton path r ih =>
    rw [← List.cons_append] at hpath hlast hspare
    rw [List.getLast?_concat, Option.some.injEq] at hlast
    rw [List.dropLast_concat] at hspare
    subst hlast
    obtain ⟨p, hp⟩ : ∃ p, (focus :: path).getLast? = some p :=
      ⟨_, List.getLast?_eq_some_getLast (List.cons_ne_nil focus path)⟩
    have hmem := List.mem_of_getLast? hp
    obtain ⟨w, hw, hwlast⟩ := ih hpath.left_of_append hp
      fun p hp => hspare p (List.mem_of_mem_dropLast hp)
    -- The walk of arrival at the package before has a hop to spare.
    have hlen := (hspare p hmem).length_le hw hwlast
    exact Selection.exists_arrival_of_hasEdge hw hwlast hlen (hpath.hasEdge_concat hp)

end

/-- With a hop limit, the packages drawn are the ends of the walks of arrival. All of them are within
the hops of the focus. The end of a walk from the focus is among them if every package before it can
only be arrived at with a hop to spare. In particular they are all packages within the hops if the
limit is one hop, or not lower than the number of packages that depend on something. -/
theorem hasNode_select_around (g : Graph) (focus : Package) (k : Int) (hfocus : focus ≠ "")
    (hk : 1 ≤ k) :
    (∀ q, ((around focus k).select g).hasNode q ↔
      ∃ w ∈ g.arrivals (k.toNat + 1) [focus], w.getLast? = some q) ∧
    (∀ q, ((around focus k).select g).hasNode q → g.ReachesWithin k.toNat focus q) ∧
    (∀ path q, g.IsPath (focus :: path) → (focus :: path).getLast? = some q →
      (∀ p ∈ (focus :: path).dropLast, g.ArrivesWithin k.toNat focus p) →
      ((around focus k).select g).hasNode q) ∧
    (k = 1 ∨ (g.packageCount : Int) ≤ k → ∀ q,
      ((around focus k).select g).hasNode q ↔ g.ReachesWithin k.toNat focus q) := by
  refine ⟨fun q => hasNode_around_iff hfocus hk, fun q => reachesWithin_of_hasNode_around hfocus hk,
    fun path q => hasNode_around_of_isPath hfocus hk, fun hlimit q => ?_⟩
  refine ⟨reachesWithin_of_hasNode_around hfocus hk, fun ⟨path, hpath, hlast, hlen⟩ => ?_⟩
  have hlimit : k.toNat = 1 ∨ g.packageCount ≤ k.toNat := by omega
  exact hasNode_around_of_isPath hfocus hk hpath hlast fun p hp =>
    Graph.arrivesWithin_of_mem_dropLast hlimit hlen hpath hp

/-- A package `b` with two walks to it from `f`, of which the longer one is taken first, and a
dependency `c` of its own. -/
def lateShortcut : Graph := .build [⟨"f", ["a", "b"]⟩, ⟨"a", ["b"]⟩, ⟨"b", ["c"]⟩]

/-- Within three hops, as many as there are packages that depend on something, all is drawn. -/
theorem hasNode_select_around_lateShortcut :
    ("f" : Package) ≠ "" ∧ (1 : Int) ≤ 3 ∧ (lateShortcut.packageCount : Int) ≤ 3 ∧
      lateShortcut.ReachesWithin 3 "f" "c" ∧
      ((around "f" 3).select lateShortcut).hasNode "c" :=
  have hfocus : ("f" : Package) ≠ "" := by decide
  have hcount : (lateShortcut.packageCount : Int) ≤ 3 := by decide +kernel
  have hreaches : lateShortcut.ReachesWithin 3 "f" "c" :=
    ⟨["b", "c"], by unfold Graph.IsPath; decide +kernel, rfl, by decide⟩
  ⟨hfocus, by decide, hcount, hreaches,
    ((hasNode_select_around lateShortcut "f" 3 hfocus (by decide)).2.2.2 (.inr hcount) "c").2
      hreaches⟩

/-- Within two hops `c` is left out, although it is two hops away: `b` is first arrived at by way of
`a`, when no hop is left to draw its dependency. -/
theorem hasNode_around_misses_lateShortcut :
    ("f" : Package) ≠ "" ∧ (1 : Int) ≤ 2 ∧ lateShortcut.ReachesWithin 2 "f" "c" ∧
      ¬ ((around "f" 2).select lateShortcut).hasNode "c" :=
  ⟨by decide, by decide, ⟨["b", "c"], by unfold Graph.IsPath; decide +kernel, rfl, by decide⟩,
    by decide +kernel⟩

end View

end PackageCycles
