import PackageCycles.Proofs.Graph.Reachability
import PackageCycles.Proofs.View.Subgraph

/-!
# Views without a hop limit

Without a limit the dependencies of a focus are followed until no package is met for the first time
any more. `Selection.Explores` says so without counting hops: a derivation of it is a run that ends,
and there is one result at most (`Selection.Explores.eq`). Each package entered leaves one package
of the graph less to be met, so as many hops as there are nodes are never used up, and the drawing
is that result (`Selection.explores_focused`). It consists of the focus with its transitive
dependencies, and of the edges from these (`View.select_unlimited`), direct ones if they start at
the focus and transitive ones otherwise (`View.IsCast`).
-/

namespace PackageCycles

namespace Selection

/-- The dependencies of `p` that are listed are followed to the end, those that have not been met
with all that they depend on. -/
inductive Explores (g : Graph) : EdgeRole → Package → List Package → Selection → Selection → Prop
  /-- None is left. -/
  | done {role : EdgeRole} {p : Package} {s : Selection} : Explores g role p [] s s
  /-- The next one has been met before; only the edge is drawn. -/
  | met {role : EdgeRole} {p q : Package} {rest : List Package} {s s' : Selection} : s.hasNode q →
      Explores g role p rest (s.addEdge ⟨p, q⟩ role) s' → Explores g role p (q :: rest) s s'
  /-- The next one is met for the first time; its own dependencies are followed before the edge is
  drawn. -/
  | entered {role : EdgeRole} {p q : Package} {rest : List Package} {s s₁ s' : Selection} :
      ¬ s.hasNode q → Explores g .transitive q (g.dependencies q) (s.addNode q .dependency) s₁ →
      Explores g role p rest (s₁.addEdge ⟨p, q⟩ role) s' → Explores g role p (q :: rest) s s'

/-- The number of nodes of the graph that are not drawn. -/
def unmet (s : Selection) (g : Graph) : Nat := g.nodes.countP fun p => !s.hasNode p

section
variable {g : Graph} {role : EdgeRole} {p q : Package} {rest : List Package}
  {s s' s₁ s₂ : Selection} {hops : Nat}

/-! ## Exploring without a limit -/

/-- There is one result at most. -/
theorem Explores.eq (h₁ : Explores g role p rest s s₁) (h₂ : Explores g role p rest s s₂) :
    s₁ = s₂ := by
  induction h₁ generalizing s₂ with
  | done =>
    cases h₂
    rfl
  | met hq _ ih =>
    cases h₂ with
    | met _ hrest => exact ih hrest
    | entered hq' _ _ => exact absurd hq hq'
  | entered hq _ _ ih ih' =>
    cases h₂ with
    | met hq' _ => exact absurd hq' hq
    | entered _ hbelow hrest =>
      cases ih hbelow
      exact ih' hrest

/-- What is drawn stays drawn. -/
theorem Explores.hasNode (h : Explores g role p rest s s') (hq : s.hasNode q) : s'.hasNode q := by
  induction h with
  | done => exact hq
  | met _ _ ih => exact ih hq
  | entered _ _ _ ih ih' => exact ih' (ih (hasNode_addNode.2 (.inl hq)))

/-! ## Enough hops -/

theorem unmet_le (h : ∀ p, s.hasNode p → s'.hasNode p) : s'.unmet g ≤ s.unmet g := by
  refine List.countP_mono_left fun p _ hp => ?_
  rw [Bool.not_eq_true', ← Bool.not_eq_true] at hp ⊢
  exact fun hold => hp (h p hold)

/-- A package of the graph that is drawn is one less to be met. -/
theorem unmet_addNode_lt (hq : q ∈ g.nodes) (hnew : ¬ s.hasNode q) :
    (s.addNode q .dependency).unmet g < s.unmet g := by
  refine Graph.countP_lt_countP (fun p _ hp => ?_) hq ?_ ?_
  · rw [Bool.not_eq_true', ← Bool.not_eq_true] at hp ⊢
    exact fun hold => hp (hasNode_addNode.2 (.inl hold))
  · rw [hasNode_addNode.2 (.inr rfl)]
    rfl
  · simpa using hnew

/-- Drawing the edges to some dependencies of a package follows them to the end, if entering each of
them does. -/
theorem explores_foldl_enter
    (henter : ∀ {s : Selection} {q : Package}, s.unmet g ≤ hops → q ∈ g.nodes → ¬ s.hasNode q →
      Explores g .transitive q (g.dependencies q) (s.addNode q .dependency)
        ((s.addNode q .dependency).addDependencies g hops .transitive q)) :
    ∀ (rest : List Package) (s : Selection), (∀ q ∈ rest, q ∈ g.nodes) → s.unmet g ≤ hops →
      Explores g role p rest s
        (rest.foldl (fun s q => (enter g hops s q).addEdge ⟨p, q⟩ role) s)
  | [], s, _, _ => .done
  | q :: rest, s, hrest, hunmet => by
    obtain ⟨hq, hrest⟩ := List.forall_mem_cons.1 hrest
    rw [List.foldl_cons]
    by_cases hmet : s.hasNode q
    · rw [enter, if_pos hmet]
      exact .met hmet (explores_foldl_enter henter rest _ hrest hunmet)
    · rw [enter, if_neg hmet]
      have hbelow := henter hunmet hq hmet
      refine .entered hmet hbelow (explores_foldl_enter henter rest _ hrest ?_)
      refine Nat.le_trans (unmet_le (s := s) fun r hr => ?_) hunmet
      exact hbelow.hasNode (hasNode_addNode.2 (.inl hr))

/-- With more hops than there are packages to be met, none of them is used up. -/
theorem explores_addDependencies : ∀ (hops : Nat) {role : EdgeRole} {p : Package} {s : Selection},
    s.unmet g < hops → Explores g role p (g.dependencies p) s (s.addDependencies g hops role p)
  | 0, _, _, _, hunmet => absurd hunmet (Nat.not_lt_zero _)
  | hops + 1, role, p, s, hunmet => by
    rw [addDependencies_succ]
    refine explores_foldl_enter (fun {s q} hunmet hq hmet => ?_) _ _ (fun q hq => ?_)
      (Nat.le_of_lt_succ hunmet)
    · exact explores_addDependencies hops (Nat.lt_of_lt_of_le (unmet_addNode_lt hq hmet) hunmet)
    · exact Graph.mem_nodes.2 ⟨p, .inr (Graph.hasEdge_iff_mem_dependencies.2 hq)⟩

/-- As many hops as there are nodes follow the dependencies of a focus to the end. -/
theorem explores_focused (g : Graph) (focus : Package) :
    Explores g .direct focus (g.dependencies focus) (focused focus)
      ((focused focus).addDependencies g g.nodes.length .direct focus) := by
  by_cases hfocus : focus ∈ g.nodes
  · have hdrawn : (!(focused focus).hasNode focus) = false := by
      rw [hasNode_focused.2 rfl]
      rfl
    have hunmet : (focused focus).unmet g < g.nodes.length := by
      rw [← List.countP_true]
      exact Graph.countP_lt_countP (fun _ _ _ => rfl) hfocus hdrawn rfl
    exact explores_addDependencies g.nodes.length hunmet
  · have hnone : g.dependencies focus = [] := by
      refine List.eq_nil_iff_forall_not_mem.2 fun q hq => hfocus ?_
      exact Graph.mem_nodes.2 ⟨q, .inl (Graph.hasEdge_iff_mem_dependencies.2 hq)⟩
    cases g.nodes.length with
    | zero =>
      rw [hnone, addDependencies_zero]
      exact .done
    | succ hops =>
      rw [addDependencies_succ, hnone]
      exact .done

end

end Selection

/-! ## The parts that are played -/

namespace View

/-- The part that a package plays around the focus of the view. -/
def Appears (v : View) (p : Package) : NodeRole → Prop
  | .package => False
  | .current => p = v.focus
  | .dependency => v.direction.showsDependencies ∧ p ≠ v.focus
  | .dependent => v.direction.showsDependents ∧ p ≠ v.focus

/-- The focus is drawn, and all that is drawn plays the part it has around the focus. -/
structure IsCast (v : View) (s : Selection) : Prop where
  /-- The focus is drawn. -/
  hasFocus : s.hasNode v.focus
  /-- The parts of the packages. -/
  appears : ∀ node ∈ s.nodes, v.Appears node.1 node.2
  /-- The parts of the edges. -/
  plays : ∀ edge ∈ s.edges, v.Plays edge.1 edge.2

section
variable {v : View} {g : Graph} {s s' : Selection} {p : Package} {e : Edge} {k : Int}
  {focus : Package}

theorem isCast_focused (v : View) : v.IsCast (.focused v.focus) where
  hasFocus := Selection.hasNode_focused.2 rfl
  appears node hnode := by
    rw [List.mem_singleton.1 hnode]
    exact rfl
  plays _ hedge := absurd hedge List.not_mem_nil

theorem IsCast.addNode (h : v.IsCast s) {role : NodeRole} (hp : v.Appears p role) :
    v.IsCast (s.addNode p role) where
  hasFocus := Selection.hasNode_addNode.2 (.inl h.hasFocus)
  appears node hnode := by
    rcases List.mem_append.1 hnode with hnode | hnode
    · exact h.appears node hnode
    · rw [List.mem_singleton.1 hnode]
      exact hp
  plays := h.plays

theorem IsCast.addEdge (h : v.IsCast s) {role : EdgeRole} (he : v.Plays e role) :
    v.IsCast (s.addEdge e role) where
  hasFocus := h.hasFocus
  appears := h.appears
  plays edge hedge := by
    rcases List.mem_append.1 hedge with hedge | hedge
    · exact h.plays edge hedge
    · rw [List.mem_singleton.1 hedge]
      exact he

/-- A step leaves the parts as they are and adds one that fits. -/
theorem IsCast.grows (h : v.IsCast s) (hstep : Selection.Grows v g s s') : v.IsCast s' := by
  cases hstep with
  | dependency hshows _ _ hq =>
    refine h.addNode ⟨hshows, ?_⟩
    rintro rfl
    exact hq h.hasFocus
  | dependent hshows _ hq =>
    refine h.addNode ⟨hshows, ?_⟩
    rintro rfl
    exact hq h.hasFocus
  | edge _ _ _ hplays => exact h.addEdge hplays

theorem IsCast.draws (h : v.IsCast s) (hdraws : Selection.Draws v g s s') : v.IsCast s' := by
  induction hdraws with
  | refl => exact h
  | tail _ hstep ih => exact ih.grows hstep

/-- What a view with a package in focus draws plays the part it has around the focus. -/
theorem isCast_select (hfocus : v.focus ≠ "") (g : Graph) : v.IsCast (v.select g) :=
  (isCast_focused v).draws (draws_select hfocus g)

/-! ## The view of all dependencies -/

/-- Without a limit, as many hops are followed as there are nodes. -/
theorem select_around_unlimited (hfocus : focus ≠ "") (hk : k ≤ 0) :
    (around focus k).select g =
      (Selection.focused focus).addDependencies g g.nodes.length .direct focus := by
  have hhops : (around focus k).hops g = g.nodes.length := if_neg (Int.not_lt.2 hk)
  have hselect : (around focus k).select g =
      (Selection.focused focus).addDependencies g ((around focus k).hops g) .direct focus :=
    select_of_focus hfocus g
  rw [hselect, hhops]

/-- The packages drawn are the focus and what it reaches. -/
theorem hasNode_around_unlimited (hfocus : focus ≠ "") (hk : k ≤ 0) :
    ((around focus k).select g).hasNode p ↔ p = focus ∨ g.Reaches focus p := by
  rw [select_around_unlimited hfocus hk, Selection.hasNode_addDependencies]
  constructor
  · rintro ⟨w, hw, hlast⟩
    obtain ⟨path, rfl, hpath, -⟩ := Graph.exists_of_mem_arrivals hw
    rcases List.mem_cons.1 (List.mem_of_getLast? hlast) with rfl | hp
    · exact .inl rfl
    · exact .inr (hpath.reaches_of_mem hp)
  · exact Graph.exists_arrival_of_reaches g.packageCount_le_length_nodes

/-- The edges drawn are those from the packages drawn. -/
theorem mem_drawnEdges_around_unlimited (hfocus : focus ≠ "") (hk : k ≤ 0) :
    e ∈ ((around focus k).select g).drawnEdges ↔
      g.hasEdge e.source e.target ∧ (e.source = focus ∨ g.Reaches focus e.source) := by
  constructor
  · intro he
    have hsubgraph := isSubgraph (around focus k) g
    exact ⟨hsubgraph.hasEdge e he,
      (hasNode_around_unlimited hfocus hk).1 (hsubgraph.hasSource e he)⟩
  · rintro ⟨hedge, hsource⟩
    have hcount := g.packageCount_le_length_nodes
    rw [select_around_unlimited hfocus hk, Selection.mem_drawnEdges_addDependencies]
    obtain ⟨w, hw, hlast⟩ := Graph.exists_arrival_of_reaches hcount hsource
    have hwithin : g.ArrivesWithin g.nodes.length focus e.source :=
      Graph.arrivesWithin_of_packageCount_le hcount (Graph.mem_packages.2 ⟨e.target, hedge⟩)
    exact ⟨⟨w, hw, hwithin.length_le hw hlast, hlast⟩, hedge⟩

/-- In a view of the dependencies, an edge is a direct one exactly if it starts at the focus. -/
theorem plays_around_iff {role : EdgeRole} :
    (around focus k).Plays e role ↔ role = if e.source = focus then .direct else .transitive := by
  cases role <;> by_cases hsource : e.source = focus <;>
    simp [Plays, around, Direction.showsDependencies, Direction.showsDependents, hsource]

/-- In a view of the dependencies, a package is the focus or a dependency. -/
theorem appears_around_iff {role : NodeRole} :
    (around focus k).Appears p role ↔ role = if p = focus then .current else .dependency := by
  cases role <;> by_cases hp : p = focus <;>
    simp [Appears, around, Direction.showsDependencies, Direction.showsDependents, hp]

/-- The packages drawn with their parts. -/
theorem mem_nodes_around_iff {role : NodeRole} (hfocus : focus ≠ "") :
    (p, role) ∈ ((around focus k).select g).nodes ↔
      ((around focus k).select g).hasNode p ∧
        role = if p = focus then .current else .dependency := by
  have hcast : (around focus k).IsCast ((around focus k).select g) := isCast_select hfocus g
  rw [Selection.hasNode_iff_mem_drawnNodes, Selection.drawnNodes, List.mem_map]
  constructor
  · intro hnode
    exact ⟨⟨(p, role), hnode, rfl⟩, appears_around_iff.1 (hcast.appears _ hnode)⟩
  · rintro ⟨⟨⟨q, role'⟩, hnode, rfl⟩, hrole⟩
    have hrole' := appears_around_iff.1 (hcast.appears _ hnode)
    exact (hrole'.trans hrole.symm) ▸ hnode

/-- The edges drawn with their parts. -/
theorem mem_edges_around_iff {role : EdgeRole} (hfocus : focus ≠ "") :
    (e, role) ∈ ((around focus k).select g).edges ↔
      e ∈ ((around focus k).select g).drawnEdges ∧
        role = if e.source = focus then .direct else .transitive := by
  have hcast : (around focus k).IsCast ((around focus k).select g) := isCast_select hfocus g
  rw [Selection.drawnEdges, List.mem_map]
  constructor
  · intro hedge
    exact ⟨⟨(e, role), hedge, rfl⟩, plays_around_iff.1 (hcast.plays _ hedge)⟩
  · rintro ⟨⟨⟨e', role'⟩, hedge, rfl⟩, hrole⟩
    have hrole' := plays_around_iff.1 (hcast.plays _ hedge)
    exact (hrole'.trans hrole.symm) ▸ hedge

/-- The packages drawn are the focus and its transitive dependencies. -/
theorem nodes_around_perm (hfocus : focus ≠ "") (hk : k ≤ 0) :
    ((around focus k).select g).nodes.Perm ((focus, .current) ::
      ((g.transitiveDependencies focus).filter (· ≠ focus)).map fun p => (p, .dependency)) := by
  have hnodup : ((g.transitiveDependencies focus).filter (· ≠ focus)).Nodup :=
    (Ordered.isOrdered_ofList _).nodup.filter _
  have hdrawn := (isSubgraph (around focus k) g).nodup.of_map
  refine (List.perm_ext_iff_of_nodup hdrawn (List.nodup_cons.2 ⟨by simp, ?_⟩)).2 ?_
  · refine hnodup.map fun p q hpq => ?_
    cases hpq
    rfl
  · rintro ⟨p, role⟩
    rw [mem_nodes_around_iff hfocus, hasNode_around_unlimited hfocus hk,
      ← Graph.mem_transitiveDependencies]
    by_cases hp : p = focus
    · simp [hp]
    · rw [if_neg hp, List.mem_cons, List.mem_map]
      constructor
      · rintro ⟨hreached, rfl⟩
        exact .inr ⟨p, by simpa [hp] using hreached, rfl⟩
      · rintro (hfocus | ⟨q, hq, heq⟩)
        · exact absurd (congrArg Prod.fst hfocus) hp
        · cases heq
          exact ⟨.inr (List.mem_filter.1 hq).1, rfl⟩

/-- The edges drawn are those from the focus and its transitive dependencies. -/
theorem edges_around_perm (hfocus : focus ≠ "") (hk : k ≤ 0) :
    ((around focus k).select g).edges.Perm ((g.edges.filter fun e =>
      e.source = focus ∨ e.source ∈ g.transitiveDependencies focus).map fun e =>
        (e, if e.source = focus then .direct else .transitive)) := by
  have hdrawn : ((around focus k).select g).drawnEdges.Nodup := by
    rw [select_around_unlimited hfocus hk]
    exact Selection.nodup_drawnEdges_addDependencies g g.nodes.length focus
  refine (List.perm_ext_iff_of_nodup hdrawn.of_map ?_).2 ?_
  · refine (g.ordered.nodup.filter _).map fun e e' heq => ?_
    exact (Prod.mk.injEq _ _ _ _ ▸ heq).1
  · rintro ⟨e, role⟩
    rw [mem_edges_around_iff hfocus, mem_drawnEdges_around_unlimited hfocus hk,
      Graph.hasEdge_iff_mem_edges, List.mem_map]
    simp only [List.mem_filter, decide_eq_true_eq, Graph.mem_transitiveDependencies, Prod.mk.injEq]
    constructor
    · rintro ⟨⟨hedge, hsource⟩, rfl⟩
      exact ⟨e, ⟨hedge, hsource⟩, rfl, rfl⟩
    · rintro ⟨e', ⟨hedge, hsource⟩, rfl, rfl⟩
      exact ⟨⟨hedge, hsource⟩, rfl⟩

end

/-- Without a hop limit, following the dependencies of a focus comes to an end, and what it draws is
the selection of the view. The packages drawn are the focus and its transitive dependencies, each
once. The edges drawn are those that start at one of these, each once, as direct edges if they start
at the focus and as transitive ones otherwise. -/
theorem select_unlimited (g : Graph) (focus : Package) (k : Int) (hfocus : focus ≠ "")
    (hk : k ≤ 0) :
    (∀ s, Selection.Explores g .direct focus (g.dependencies focus) (.focused focus) s ↔
      s = (around focus k).select g) ∧
    ((around focus k).select g).drawnNodes.Nodup ∧
    ((around focus k).select g).nodes.Perm ((focus, .current) ::
      ((g.transitiveDependencies focus).filter (· ≠ focus)).map fun p => (p, .dependency)) ∧
    ((around focus k).select g).drawnEdges.Nodup ∧
    ((around focus k).select g).edges.Perm ((g.edges.filter fun e =>
      e.source = focus ∨ e.source ∈ g.transitiveDependencies focus).map fun e =>
        (e, if e.source = focus then .direct else .transitive)) := by
  have hexplores := Selection.explores_focused g focus
  rw [← select_around_unlimited hfocus hk] at hexplores
  refine ⟨fun s => ⟨fun hs => hs.eq hexplores, fun hs => hs ▸ hexplores⟩,
    (isSubgraph (around focus k) g).nodup, nodes_around_perm hfocus hk, ?_,
    edges_around_perm hfocus hk⟩
  rw [select_around_unlimited hfocus hk]
  exact Selection.nodup_drawnEdges_addDependencies g g.nodes.length focus

/-- Around `a`, which depends on `b` and on itself by way of it, both packages are drawn once, with
the edge back to the focus as a transitive one. -/
theorem select_unlimited_mutualPair :
    ("a" : Package) ≠ "" ∧ (0 : Int) ≤ 0 ∧
      mutualPair.transitiveDependencies "a" = ["a", "b"] ∧
      ((around "a" 0).select mutualPair).nodes.Perm [("a", .current), ("b", .dependency)] ∧
      ((around "a" 0).select mutualPair).edges.Perm
        [(⟨"a", "b"⟩, .direct), (⟨"b", "a"⟩, .transitive)] := by
  have hfocus : ("a" : Package) ≠ "" := by decide
  have hclosure : mutualPair.transitiveDependencies "a" = ["a", "b"] := by
    decide +kernel
  obtain ⟨-, -, hnodes, -, hedges⟩ := select_unlimited mutualPair "a" 0 hfocus (Int.le_refl 0)
  rw [hclosure] at hnodes hedges
  exact ⟨hfocus, Int.le_refl 0, hclosure, hnodes, hedges⟩

end View

end PackageCycles
