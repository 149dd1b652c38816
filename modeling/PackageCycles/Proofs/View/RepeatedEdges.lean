import PackageCycles.Proofs.Text.Separator
import PackageCycles.Proofs.View.HopLimit
import PackageCycles.View.Drawing

/-!
# Edges that are drawn twice

A view draws the whole graph, or the dependencies of a focus and then its dependents. Neither pass
draws an edge twice, so an edge is drawn twice exactly if both passes draw it: it leads to the focus,
and the dependencies have been followed to its source with a hop to spare (`View.Returns`). Without
transitive dependencies that is an edge from the focus to itself, and without a hop limit it is so
whenever the focus lies on a cycle (`View.nodup_drawnEdges_iff`). A repeated edge is a repeated
identifier of a Cytoscape element and a repeated line of text.
-/

namespace PackageCycles

namespace Graph

/-- The edges to the package. -/
def incoming (g : Graph) (p : Package) : List Edge := (g.dependents p).map fun q => ⟨q, p⟩

section
variable {g : Graph} {n : Nat} {p q : Package} {e : Edge}

theorem mem_incoming : e ∈ g.incoming p ↔ e.target = p ∧ g.hasEdge e.source p := by
  rw [incoming, List.mem_map]
  constructor
  · rintro ⟨q, hq, rfl⟩
    exact ⟨rfl, mem_dependents.1 hq⟩
  · rintro ⟨rfl, hedge⟩
    exact ⟨e.source, mem_dependents.2 hedge, rfl⟩

/-- No edge leads to a package twice. -/
theorem nodup_incoming (g : Graph) (p : Package) : (g.incoming p).Nodup := by
  refine (g.isOrdered_dependents p).nodup.map fun q r hqr => ?_
  cases hqr
  rfl

/-- The packages that depend on something are nodes. -/
theorem packageCount_le_length_nodes (g : Graph) : g.packageCount ≤ g.nodes.length := by
  have hnodup : g.packages.Nodup := (Ordered.isOrdered_ofList _).nodup
  refine (hnodup.subperm fun p hp => ?_).length_le
  obtain ⟨q, hedge⟩ := mem_packages.1 hp
  exact mem_nodes.2 ⟨q, .inl hedge⟩

end

end Graph

namespace Selection

/-- The dependents of a package are drawn after what is drawn already. -/
theorem drawnEdges_addDependents (s : Selection) (g : Graph) (p : Package) :
    (s.addDependents g p).drawnEdges = s.drawnEdges ++ g.incoming p := by
  rw [addDependents, Graph.incoming]
  induction g.dependents p generalizing s with
  | nil => simp
  | cons q rest ih =>
    rw [List.foldl_cons, ih, drawnEdges_addEdge, List.map_cons, List.append_assoc]
    split
    · rfl
    · rfl

/-- The lines of the packages that are drawn without an edge. -/
def loneNodes (s : Selection) : Text :=
  s.nodes.flatMap fun (p, _) =>
    if s.edges.any fun (e, _) => e.source = p || e.target = p then [] else p ++ ("\n" : Text)

end Selection

/-- The line of an edge, marked if the edge lies on a cycle. -/
def Highlight.edgeLine (h : Highlight) (e : Edge) : Text :=
  e.source ++ " -> " ++ e.target ++ (if h.hasEdge e then " [cycle]\n" else "\n" : Text)

/-- The text has one line for each edge drawn. -/
theorem Selection.toText_eq (s : Selection) (h : Highlight) :
    s.toText h = s.drawnEdges.flatMap h.edgeLine ++ s.loneNodes := by
  rw [toText, drawnEdges, List.flatMap_map]
  rfl

/-- The identifiers of the Cytoscape elements are those of the edges drawn. -/
theorem Cytoscape.ids_ofSelection (s : Selection) (h : Highlight) :
    (Cytoscape.ofSelection s h).edges.map (·.edge.id) = s.drawnEdges.map Edge.id := by
  rw [Cytoscape.ofSelection, Selection.drawnEdges, List.map_map, List.map_map]
  rfl

/-- The identifier tells the edge if the names of the packages do not hold the arrow. -/
theorem Edge.eq_of_id_eq {e e' : Edge} (he : ¬ ("->" : Text) <:+: e.source)
    (he' : ¬ ("->" : Text) <:+: e'.source) (heq : e.id = e'.id) : e = e' := by
  have hbytes : ("->" : Text) = [45, 62] := by decide
  have hfree {x : Text} (hx : ¬ ("->" : Text) <:+: x) : Text.Free "->" x := by
    rw [hbytes] at hx ⊢
    exact (Text.free_pair_iff (by decide)).2 hx
  obtain ⟨hsource, htarget⟩ := (hfree he).cut (hfree he') heq
  cases e
  cases e'
  cases hsource
  cases htarget
  rfl

namespace View

/-- The dependencies of the focus are followed, with a hop to spare, to a package that depends on the
focus. -/
def Returns (v : View) (g : Graph) : Prop :=
  ∃ w ∈ g.arrivals (v.hops g + 1) [v.focus], w.length ≤ v.hops g ∧
    ∃ p ∈ w.getLast?, g.hasEdge p v.focus

section
variable {v : View} {g : Graph} {e : Edge}

/-- The view of the whole graph draws its edges. -/
theorem drawnEdges_select_whole (hfocus : v.focus = "") : (v.select g).drawnEdges = g.edges := by
  rw [select, if_pos hfocus, Selection.drawnEdges, List.map_map]
  exact List.map_id _

/-- Among the dependencies of the focus no edge is drawn twice. -/
theorem nodup_drawnEdges_below (v : View) (g : Graph) : (v.below g).drawnEdges.Nodup := by
  rw [below]
  split
  · exact Selection.nodup_drawnEdges_addDependencies g (v.hops g) v.focus
  · exact .nil

/-- An edge to the focus is drawn with its dependencies if these are followed to a package that
depends on it. -/
theorem exists_mem_drawnEdges_below_iff :
    (∃ e ∈ (v.below g).drawnEdges, e.target = v.focus) ↔
      v.direction.showsDependencies ∧ v.Returns g := by
  rw [below]
  split
  next hshows =>
    rw [and_iff_right hshows]
    constructor
    · rintro ⟨e, he, htarget⟩
      obtain ⟨⟨w, hw, hlen, hlast⟩, hedge⟩ := Selection.mem_drawnEdges_addDependencies.1 he
      exact ⟨w, hw, hlen, e.source, hlast, htarget ▸ hedge⟩
    · rintro ⟨w, hw, hlen, p, hlast, hedge⟩
      exact ⟨⟨p, v.focus⟩, Selection.mem_drawnEdges_addDependencies.2 ⟨⟨w, hw, hlen, hlast⟩, hedge⟩,
        rfl⟩
  next hshows =>
    constructor
    · rintro ⟨e, he, -⟩
      exact nomatch he
    · rintro ⟨hshows', -⟩
      exact absurd hshows' hshows

/-- An edge drawn among the dependencies is one of the graph. -/
theorem hasEdge_of_mem_drawnEdges_below (he : e ∈ (v.below g).drawnEdges) :
    g.hasEdge e.source e.target := by
  rw [below] at he
  split at he
  · exact (Selection.mem_drawnEdges_addDependencies.1 he).2
  · exact nomatch he

/-- All edges drawn are edges of the graph. -/
theorem hasEdge_of_mem_drawnEdges (he : e ∈ (v.select g).drawnEdges) :
    g.hasEdge e.source e.target := by
  by_cases hfocus : v.focus = ""
  · rw [drawnEdges_select_whole hfocus] at he
    exact Graph.hasEdge_iff_mem_edges.2 he
  · rw [select_of_focus hfocus] at he
    split at he
    · rw [Selection.drawnEdges_addDependents] at he
      rcases List.mem_append.1 he with he | he
      · exact hasEdge_of_mem_drawnEdges_below he
      · obtain ⟨htarget, hedge⟩ := Graph.mem_incoming.1 he
        exact htarget ▸ hedge
    · exact hasEdge_of_mem_drawnEdges_below he

/-- An edge is drawn twice exactly if both passes draw it. -/
theorem nodup_drawnEdges_select_iff (v : View) (g : Graph) :
    (v.select g).drawnEdges.Nodup ↔
      ¬ (v.focus ≠ "" ∧ v.direction = .both ∧ v.Returns g) := by
  have hboth : v.direction = .both ↔
      v.direction.showsDependencies ∧ v.direction.showsDependents := by
    cases v.direction <;> simp [Direction.showsDependencies, Direction.showsDependents]
  by_cases hfocus : v.focus = ""
  · rw [drawnEdges_select_whole hfocus]
    exact iff_of_true g.ordered.nodup fun h => h.1 hfocus
  · rw [select_of_focus hfocus]
    split
    next hdependents =>
      rw [Selection.drawnEdges_addDependents, List.nodup_append, hboth]
      constructor
      · rintro ⟨-, -, hdisjoint⟩ ⟨-, ⟨hdependencies, -⟩, hreturns⟩
        obtain ⟨e, he, htarget⟩ := exists_mem_drawnEdges_below_iff.2 ⟨hdependencies, hreturns⟩
        have hedge := hasEdge_of_mem_drawnEdges_below he
        exact hdisjoint e he e (Graph.mem_incoming.2 ⟨htarget, htarget ▸ hedge⟩) rfl
      · intro hnot
        refine ⟨nodup_drawnEdges_below v g, g.nodup_incoming v.focus, ?_⟩
        rintro e he _ he' rfl
        obtain ⟨hdependencies, hreturns⟩ :=
          exists_mem_drawnEdges_below_iff.1 ⟨e, he, (Graph.mem_incoming.1 he').1⟩
        exact hnot ⟨hfocus, ⟨hdependencies, hdependents⟩, hreturns⟩
    next hdependents =>
      exact iff_of_true (nodup_drawnEdges_below v g) fun h => hdependents (hboth.1 h.2.1).2

/-- An edge that is drawn more than once leads to the focus and is drawn twice. -/
theorem count_drawnEdges (hcount : 1 < (v.select g).drawnEdges.count e) :
    e.target = v.focus ∧ (v.select g).drawnEdges.count e = 2 := by
  have hbelow := List.nodup_iff_count_le_one.1 (nodup_drawnEdges_below v g) e
  by_cases hfocus : v.focus = ""
  · rw [drawnEdges_select_whole hfocus] at hcount
    have hle := List.nodup_iff_count_le_one.1 g.ordered.nodup e
    omega
  · rw [select_of_focus hfocus] at hcount ⊢
    split at hcount
    next hdependents =>
      rw [if_pos hdependents]
      rw [Selection.drawnEdges_addDependents, List.count_append] at hcount ⊢
      have hincoming := List.nodup_iff_count_le_one.1 (g.nodup_incoming v.focus) e
      have hmem : e ∈ g.incoming v.focus := List.count_pos_iff.1 (by omega)
      exact ⟨(Graph.mem_incoming.1 hmem).1, by omega⟩
    next => omega

/-! ## When the dependencies return to the focus -/

/-- Without dependencies of dependencies, the focus has to depend on itself. -/
theorem returns_direct_iff (hdirect : v.transitive = false) :
    v.Returns g ↔ g.hasEdge v.focus v.focus := by
  have hhops : v.hops g = 1 := by rw [hops, hdirect, if_neg Bool.false_ne_true]
  rw [Returns, hhops]
  constructor
  · rintro ⟨w, hw, hlen, p, hlast, hedge⟩
    obtain ⟨path, rfl, -⟩ := Graph.exists_of_mem_arrivals hw
    obtain rfl : path = [] := List.eq_nil_of_length_eq_zero (by simpa using hlen)
    obtain rfl : v.focus = p := by simpa using hlast
    exact hedge
  · intro hedge
    exact ⟨[v.focus], Graph.singleton_mem_arrivals g 1 v.focus, Nat.le_refl 1, v.focus, rfl, hedge⟩

/-- Without a hop limit, the focus has to lie on a cycle. -/
theorem returns_unlimited_iff (htransitive : v.transitive) (hdepth : v.maxDepth ≤ 0) :
    v.Returns g ↔ g.Reaches v.focus v.focus := by
  have hhops : v.hops g = g.nodes.length := by
    rw [hops, if_pos htransitive, if_neg (Int.not_lt.2 hdepth)]
  rw [Returns, hhops]
  constructor
  · rintro ⟨w, hw, -, p, hlast, hedge⟩
    obtain ⟨path, rfl, hpath, -⟩ := Graph.exists_of_mem_arrivals hw
    have hclosed : g.IsPath (v.focus :: path ++ [v.focus]) := hpath.concat fun q hq => by
      rw [hlast, Option.mem_some_iff] at hq
      exact hq ▸ hedge
    exact hclosed.reaches_concat List.mem_cons_self
  · intro hreaches
    obtain ⟨p, hp, hedge⟩ := hreaches.exists_last
    have hcount := g.packageCount_le_length_nodes
    obtain ⟨w, hw, hlast⟩ := Graph.exists_arrival_of_reaches hcount hp
    have hwithin : g.ArrivesWithin g.nodes.length v.focus p :=
      Graph.arrivesWithin_of_packageCount_le hcount (Graph.mem_packages.2 ⟨_, hedge⟩)
    exact ⟨w, hw, hwithin.length_le hw hlast, p, hlast, hedge⟩

end

/-- The edges drawn contain no edge twice unless both sides of a focus are drawn and its dependencies
are followed, with a hop to spare, to a package that depends on it. An edge that is repeated leads to
the focus and is drawn twice. Without transitive dependencies that takes an edge from the focus to
itself, without a hop limit a cycle through it. If no package has the arrow in its name, identifiers
are repeated only with their edges. The text has one line for each time an edge is drawn. -/
theorem nodup_drawnEdges_iff (v : View) (g : Graph) (h : Highlight) :
    ((v.select g).drawnEdges.Nodup ↔ ¬ (v.focus ≠ "" ∧ v.direction = .both ∧ v.Returns g)) ∧
    (∀ e, 1 < (v.select g).drawnEdges.count e →
      e.target = v.focus ∧ (v.select g).drawnEdges.count e = 2) ∧
    (v.transitive = false → (v.Returns g ↔ g.hasEdge v.focus v.focus)) ∧
    (v.transitive → v.maxDepth ≤ 0 → (v.Returns g ↔ g.Reaches v.focus v.focus)) ∧
    ((∀ p ∈ g.packages, ¬ ("->" : Text) <:+: p) →
      (((Cytoscape.ofSelection (v.select g) h).edges.map (·.edge.id)).Nodup ↔
        (v.select g).drawnEdges.Nodup)) ∧
    (v.select g).toText h =
      (v.select g).drawnEdges.flatMap h.edgeLine ++ (v.select g).loneNodes := by
  refine ⟨nodup_drawnEdges_select_iff v g, fun e => count_drawnEdges, returns_direct_iff,
    returns_unlimited_iff, fun harrow => ?_, (v.select g).toText_eq h⟩
  have hsource : ∀ e ∈ (v.select g).drawnEdges, ¬ ("->" : Text) <:+: e.source := fun e he =>
    harrow e.source (Graph.mem_packages.2 ⟨e.target, hasEdge_of_mem_drawnEdges he⟩)
  rw [Cytoscape.ids_ofSelection]
  refine ⟨List.Nodup.of_map _, fun hnodup => hnodup.map_on fun e he e' he' heq => ?_⟩
  exact Edge.eq_of_id_eq (hsource e he) (hsource e' he') heq

/-- Two packages that depend on each other. -/
def mutualPair : Graph := .build [⟨"a", ["b"]⟩, ⟨"b", ["a"]⟩]

/-- The dependencies of `a`, and theirs, are drawn without repetition; no name holds the arrow, so
the identifiers of the elements are distinct as well. -/
theorem nodup_drawnEdges_iff_mutualPair :
    (∀ p ∈ mutualPair.packages, ¬ ("->" : Text) <:+: p) ∧
      ((View.mk "a" .dependencies true 0).select mutualPair).drawnEdges.Nodup ∧
      ((Cytoscape.ofSelection ((View.mk "a" .dependencies true 0).select mutualPair)
        (.ofCycles [])).edges.map (·.edge.id)).Nodup :=
  have harrow : ∀ p ∈ mutualPair.packages, ¬ ("->" : Text) <:+: p := by decide +kernel
  have hmain := nodup_drawnEdges_iff ⟨"a", .dependencies, true, 0⟩ mutualPair (.ofCycles [])
  have hnodup := hmain.1.2 fun hboth => nomatch hboth.2.1
  ⟨harrow, hnodup, (hmain.2.2.2.2.1 harrow).2 hnodup⟩

/-- With the dependents on the other side, the edge from `b` to `a` is drawn twice: among the
dependencies of dependencies, and as the edge of a dependent. -/
theorem not_nodup_drawnEdges_mutualPair :
    (∀ p ∈ mutualPair.packages, ¬ ("->" : Text) <:+: p) ∧
      ¬ ((View.mk "a" .both true 0).select mutualPair).drawnEdges.Nodup ∧
      ((View.mk "a" .both true 0).select mutualPair).toText (.ofCycles []) =
        "b -> a\na -> b\nb -> a\n" :=
  ⟨by decide +kernel, by decide +kernel, by decide +kernel⟩

end View

end PackageCycles
