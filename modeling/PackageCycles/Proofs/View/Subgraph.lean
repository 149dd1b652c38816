import Mathlib.Logic.Relation
import PackageCycles.Proofs.View.RepeatedEdges

/-!
# Drawings are parts of the graph

Around a focus a drawing grows step by step (`Selection.Grows`): a package that is met for the first
time is drawn next to one that is drawn already, and an edge is drawn when both its ends are. Both
passes over the focus are runs of such steps (`View.draws_select`), so what one step keeps, every
view has: no package is drawn twice, and every edge drawn is one of the graph and joins packages
that are drawn (`Selection.IsSubgraph`). In the text a package that is drawn stands on a line of its
own exactly if none of the lines of edges names it (`View.isSubgraph_select`).
-/

namespace PackageCycles

/-- The part that an edge plays around the focus of the view. -/
def View.Plays (v : View) (e : Edge) : EdgeRole → Prop
  | .direct => v.direction.showsDependencies ∧ e.source = v.focus
  | .transitive => v.direction.showsDependencies ∧ e.source ≠ v.focus
  | .dependsOn => v.direction.showsDependents ∧ e.target = v.focus

/-- The part that the edges to the dependencies of a package play. -/
def View.roleBelow (v : View) (p : Package) : EdgeRole :=
  if p = v.focus then .direct else .transitive

theorem View.plays_roleBelow {v : View} (hshows : v.direction.showsDependencies) (e : Edge) :
    v.Plays e (v.roleBelow e.source) := by
  rw [roleBelow]
  split
  next hfocus => exact ⟨hshows, hfocus⟩
  next hfocus => exact ⟨hshows, hfocus⟩

namespace Selection

/-- The packages drawn, without their parts. -/
def drawnNodes (s : Selection) : List Package := s.nodes.map Prod.fst

/-- One step of drawing the surroundings of a focus. -/
inductive Grows (v : View) (g : Graph) : Selection → Selection → Prop
  /-- A dependency of a package that is drawn is met for the first time. -/
  | dependency {s : Selection} {p q : Package} : v.direction.showsDependencies → s.hasNode p →
      g.hasEdge p q → ¬ s.hasNode q → Grows v g s (s.addNode q .dependency)
  /-- A package that depends on the focus is met for the first time. -/
  | dependent {s : Selection} {q : Package} : v.direction.showsDependents →
      g.hasEdge q v.focus → ¬ s.hasNode q → Grows v g s (s.addNode q .dependent)
  /-- An edge is drawn between packages that are drawn. -/
  | edge {s : Selection} {e : Edge} {role : EdgeRole} : g.hasEdge e.source e.target →
      s.hasNode e.source → s.hasNode e.target → v.Plays e role → Grows v g s (s.addEdge e role)

/-- Any number of steps. -/
def Draws (v : View) (g : Graph) : Selection → Selection → Prop :=
  Relation.ReflTransGen (Grows v g)

section
variable {v : View} {g : Graph} {s s' : Selection} {hops : Nat} {p q : Package} {e : Edge}

theorem hasNode_iff_mem_drawnNodes : s.hasNode p ↔ p ∈ s.drawnNodes := by
  simp [hasNode, drawnNodes]

theorem drawnNodes_addNode {role : NodeRole} :
    (s.addNode p role).drawnNodes = s.drawnNodes ++ [p] := by
  simp [drawnNodes, addNode]

/-! ## What a step keeps -/

/-- What is drawn stays drawn. -/
theorem Grows.hasNode (h : Grows v g s s') (hp : s.hasNode p) : s'.hasNode p := by
  cases h with
  | dependency _ _ _ _ => exact hasNode_addNode.2 (.inl hp)
  | dependent _ _ _ => exact hasNode_addNode.2 (.inl hp)
  | edge _ _ _ _ => exact hp

/-- What is drawn is a part of the graph. -/
structure IsSubgraph (s : Selection) (g : Graph) : Prop where
  /-- No package is drawn twice. -/
  nodup : s.drawnNodes.Nodup
  /-- The edges drawn are edges of the graph. -/
  hasEdge : ∀ e ∈ s.drawnEdges, g.hasEdge e.source e.target
  /-- Where an edge starts, a package is drawn. -/
  hasSource : ∀ e ∈ s.drawnEdges, s.hasNode e.source
  /-- Where an edge ends, a package is drawn. -/
  hasTarget : ∀ e ∈ s.drawnEdges, s.hasNode e.target

/-- A node that is not drawn yet may be drawn. -/
theorem IsSubgraph.addNode (h : s.IsSubgraph g) (hq : ¬ s.hasNode q) (role : NodeRole) :
    (s.addNode q role).IsSubgraph g where
  nodup := by
    rw [drawnNodes_addNode, ← List.concat_eq_append]
    exact (List.nodup_concat _ _).2 ⟨fun hmem => hq (hasNode_iff_mem_drawnNodes.2 hmem), h.nodup⟩
  hasEdge := h.hasEdge
  hasSource e he := hasNode_addNode.2 (.inl (h.hasSource e he))
  hasTarget e he := hasNode_addNode.2 (.inl (h.hasTarget e he))

/-- An edge may be drawn whose ends are drawn. -/
theorem IsSubgraph.addEdge (h : s.IsSubgraph g) (hedge : g.hasEdge e.source e.target)
    (hsource : s.hasNode e.source) (htarget : s.hasNode e.target) (role : EdgeRole) :
    (s.addEdge e role).IsSubgraph g := by
  have hforall : ∀ {P : Edge → Prop}, (∀ e ∈ s.drawnEdges, P e) → P e →
      ∀ e' ∈ (s.addEdge e role).drawnEdges, P e' := by
    intro P hold hnew e' he'
    rw [drawnEdges_addEdge] at he'
    rcases List.mem_append.1 he' with he' | he'
    · exact hold e' he'
    · rw [List.mem_singleton.1 he']
      exact hnew
  exact ⟨h.nodup, hforall h.hasEdge hedge, hforall h.hasSource hsource,
    hforall h.hasTarget htarget⟩

/-- A step leads from a part of the graph to a part of the graph. -/
theorem IsSubgraph.grows (h : s.IsSubgraph g) (hstep : Grows v g s s') : s'.IsSubgraph g := by
  cases hstep with
  | dependency _ _ _ hq => exact h.addNode hq .dependency
  | dependent _ _ hq => exact h.addNode hq .dependent
  | edge hedge hsource htarget _ => exact h.addEdge hedge hsource htarget _

/-! ## What a run keeps -/

theorem Draws.hasNode (h : Draws v g s s') (hp : s.hasNode p) : s'.hasNode p := by
  induction h with
  | refl => exact hp
  | tail _ hstep ih => exact hstep.hasNode ih

/-- Drawing keeps to the graph. -/
theorem IsSubgraph.draws (h : s.IsSubgraph g) (hdraws : Draws v g s s') : s'.IsSubgraph g := by
  induction hdraws with
  | refl => exact h
  | tail _ hstep ih => exact ih.grows hstep

theorem isSubgraph_focused (g : Graph) (focus : Package) : (focused focus).IsSubgraph g where
  nodup := List.nodup_singleton focus
  hasEdge _ he := absurd he List.not_mem_nil
  hasSource _ he := absurd he List.not_mem_nil
  hasTarget _ he := absurd he List.not_mem_nil

/-! ## The passes are runs -/

/-- Drawing the edges to some dependencies of a package is a run, if entering each of them is. -/
theorem draws_foldl_enter
    (henter : ∀ {s : Selection} {q : Package}, s.hasNode v.focus → s.hasNode p → g.hasEdge p q →
      Draws v g s (enter g hops s q) ∧ (enter g hops s q).hasNode q)
    (hshows : v.direction.showsDependencies) :
    ∀ (rest : List Package) (s : Selection), (∀ q ∈ rest, g.hasEdge p q) → s.hasNode v.focus →
      s.hasNode p →
      Draws v g s (rest.foldl (fun s q => (enter g hops s q).addEdge ⟨p, q⟩ (v.roleBelow p)) s)
  | [], s, _, _, _ => .refl
  | q :: rest, s, hrest, hfocus, hp => by
    obtain ⟨hedge, hrest⟩ := List.forall_mem_cons.1 hrest
    obtain ⟨hdraws, hq⟩ := henter hfocus hp hedge
    have hgrows : Grows v g (enter g hops s q) _ :=
      .edge (e := ⟨p, q⟩) hedge (hdraws.hasNode hp) hq (View.plays_roleBelow hshows ⟨p, q⟩)
    have hnext := hdraws.tail hgrows
    exact hnext.trans (draws_foldl_enter henter hshows rest _ hrest (Draws.hasNode hnext hfocus)
      (Draws.hasNode hnext hp))

/-- Following the dependencies of a package that is drawn is a run. -/
theorem draws_addDependencies (hshows : v.direction.showsDependencies) :
    ∀ (hops : Nat) {s : Selection} {p : Package}, s.hasNode v.focus → s.hasNode p →
      Draws v g s (s.addDependencies g hops (v.roleBelow p) p)
  | 0, s, p, _, _ => by
    rw [addDependencies_zero]
    exact .refl
  | hops + 1, s, p, hfocus, hp => by
    rw [addDependencies_succ]
    refine draws_foldl_enter (fun {s q} hfocus hp hedge => ?_) hshows (g.dependencies p) s
      (fun q hq => Graph.hasEdge_iff_mem_dependencies.2 hq) hfocus hp
    rw [enter]
    split
    next hq => exact ⟨.refl, hq⟩
    next hq =>
      have hgrows : Grows v g s (s.addNode q .dependency) := .dependency hshows hp hedge hq
      have hnew : (s.addNode q .dependency).hasNode q := hasNode_addNode.2 (.inr rfl)
      -- The focus is drawn from the start, so it is never entered.
      have hrole : v.roleBelow q = .transitive := by
        rw [View.roleBelow, if_neg]
        rintro rfl
        exact hq hfocus
      have hdraws := draws_addDependencies hshows hops (hgrows.hasNode hfocus) hnew
      rw [hrole] at hdraws
      exact ⟨.head hgrows hdraws, hdraws.hasNode hnew⟩

/-- Drawing packages that depend on the focus is a run. -/
theorem draws_foldl_dependents (hshows : v.direction.showsDependents) :
    ∀ (rest : List Package) (s : Selection), (∀ q ∈ rest, g.hasEdge q v.focus) →
      s.hasNode v.focus →
      Draws v g s (rest.foldl
        (fun s q => (if s.hasNode q then s else s.addNode q .dependent).addEdge ⟨q, v.focus⟩
          .dependsOn) s)
  | [], _, _, _ => .refl
  | q :: rest, s, hrest, hfocus => by
    obtain ⟨hedge, hrest⟩ := List.forall_mem_cons.1 hrest
    have hentered : Draws v g s (if s.hasNode q then s else s.addNode q .dependent) ∧
        (if s.hasNode q then s else s.addNode q .dependent).hasNode q := by
      split
      next hq => exact ⟨.refl, hq⟩
      next hq => exact ⟨.single (.dependent hshows hedge hq), hasNode_addNode.2 (.inr rfl)⟩
    obtain ⟨hdraws, hq⟩ := hentered
    have hplays : v.Plays ⟨q, v.focus⟩ .dependsOn := ⟨hshows, rfl⟩
    have hgrows : Grows v g _ _ :=
      .edge (e := ⟨q, v.focus⟩) hedge hq (hdraws.hasNode hfocus) hplays
    have hnext := hdraws.tail hgrows
    exact hnext.trans (draws_foldl_dependents hshows rest _ hrest (Draws.hasNode hnext hfocus))

/-- With the dependents of a package only these are drawn anew. -/
theorem hasNode_addDependents (hq : (s.addDependents g p).hasNode q) :
    s.hasNode q ∨ g.hasEdge q p := by
  rw [addDependents] at hq
  suffices ∀ (rest : List Package) (s : Selection), (rest.foldl
      (fun s q => (if s.hasNode q then s else s.addNode q .dependent).addEdge ⟨q, p⟩ .dependsOn)
      s).hasNode q → s.hasNode q ∨ q ∈ rest from
    (this _ s hq).imp_right Graph.mem_dependents.1
  intro rest
  induction rest with
  | nil => exact fun s hq => .inl hq
  | cons r rest ih =>
    intro s hq
    rcases ih _ hq with hq | hq
    · rw [hasNode_addEdge] at hq
      split at hq
      next => exact .inl hq
      next =>
        rcases hasNode_addNode.1 hq with hq | rfl
        · exact .inl hq
        · exact .inr List.mem_cons_self
    · exact .inr (List.mem_cons_of_mem _ hq)

end

end Selection

/-! ## Packages without an edge -/

namespace Selection

/-- The packages drawn that are at neither end of an edge drawn. -/
def lonePackages (s : Selection) : List Package :=
  s.drawnNodes.filter fun p => !s.drawnEdges.any fun e => e.source = p || e.target = p

section
variable {s : Selection} {p : Package}

/-- The lone packages are those at neither end of an edge drawn. -/
theorem mem_lonePackages : p ∈ s.lonePackages ↔
    s.hasNode p ∧ ¬ ∃ e ∈ s.drawnEdges, e.source = p ∨ e.target = p := by
  simp [lonePackages, hasNode_iff_mem_drawnNodes]

/-- The text lists the packages without an edge, one on each line. -/
theorem loneNodes_eq (s : Selection) :
    s.loneNodes = s.lonePackages.flatMap fun p => p ++ ("\n" : Text) := by
  have hlone : s.loneNodes = s.drawnNodes.flatMap fun p =>
      if s.drawnEdges.any fun e => e.source = p || e.target = p then [] else p ++ ("\n" : Text) := by
    rw [loneNodes, drawnNodes, drawnEdges, List.flatMap_map]
    simp only [List.any_map]
    rfl
  rw [hlone, lonePackages]
  induction s.drawnNodes with
  | nil => rfl
  | cons p rest ih =>
    rw [List.flatMap_cons, ih, List.filter_cons]
    cases s.drawnEdges.any fun e => e.source = p || e.target = p with
    | true => simp
    | false => simp

end

end Selection

/-- The line of an edge, without its end. -/
def Highlight.edgeText (h : Highlight) (e : Edge) : Text :=
  e.source ++ " -> " ++ e.target ++ (if h.hasEdge e then " [cycle]" else "" : Text)

theorem Highlight.edgeLine_eq (h : Highlight) (e : Edge) :
    h.edgeLine e = h.edgeText e ++ ("\n" : Text) := by
  rw [edgeLine, edgeText, List.append_assoc _ _ ("\n" : Text)]
  split
  · rfl
  · rfl

/-- The lines of the text: those of the edges, then the packages without an edge. -/
def Selection.textLines (s : Selection) (h : Highlight) : List Text :=
  s.drawnEdges.map h.edgeText ++ s.lonePackages

/-- The text of a drawing is made up of lines. -/
theorem Selection.toText_eq_lines (s : Selection) (h : Highlight) :
    s.toText h = (s.textLines h).flatMap fun line => line ++ ("\n" : Text) := by
  have hline : h.edgeLine = fun e => h.edgeText e ++ ("\n" : Text) := funext h.edgeLine_eq
  rw [toText_eq, textLines, List.flatMap_append, loneNodes_eq, List.flatMap_map, hline]

/-- No line holds a line break if no package drawn does. -/
theorem Selection.newline_notMem_textLines {s : Selection} {g : Graph} (h : s.IsSubgraph g)
    (hnodes : ∀ p ∈ s.drawnNodes, Text.byte '\n' ∉ p) (highlight : Highlight) :
    ∀ line ∈ s.textLines highlight, Text.byte '\n' ∉ line := by
  have hnode : ∀ p, s.hasNode p → Text.byte '\n' ∉ p :=
    fun p hp => hnodes p (hasNode_iff_mem_drawnNodes.1 hp)
  intro line hline
  rcases List.mem_append.1 hline with hline | hline
  · obtain ⟨e, he, rfl⟩ := List.mem_map.1 hline
    have hsource := hnode _ (h.hasSource e he)
    have htarget := hnode _ (h.hasTarget e he)
    have harrow : Text.byte '\n' ∉ (" -> " : Text) := by decide
    have hmark : Text.byte '\n' ∉
        (if highlight.hasEdge e then " [cycle]" else "" : Text) := by
      split
      · decide
      · decide
    simp only [Highlight.edgeText, List.mem_append, not_or]
    exact ⟨⟨⟨hsource, harrow⟩, htarget⟩, hmark⟩
  · exact hnode line (mem_lonePackages.1 hline).1

/-! ## Views -/

namespace View

section
variable {v : View} {g : Graph} {p : Package} {e : Edge}

/-- A view with a package in focus is drawn step by step from the focus alone. -/
theorem draws_select (hfocus : v.focus ≠ "") (g : Graph) :
    Selection.Draws v g (.focused v.focus) (v.select g) := by
  have hstart : (Selection.focused v.focus).hasNode v.focus := Selection.hasNode_focused.2 rfl
  have hbelow : Selection.Draws v g (.focused v.focus) (v.below g) := by
    rw [below]
    split
    next hshows =>
      have hrole : v.roleBelow v.focus = .direct := if_pos rfl
      rw [← hrole]
      exact Selection.draws_addDependencies hshows (v.hops g) hstart hstart
    next => exact .refl
  rw [select_of_focus hfocus]
  split
  next hshows =>
    refine hbelow.trans (Selection.draws_foldl_dependents hshows (g.dependents v.focus) _
      (fun q hq => ?_) (hbelow.hasNode hstart))
    exact Graph.mem_dependents.1 hq
  next => exact hbelow

/-- The view of the whole graph draws its nodes. -/
theorem drawnNodes_select_whole (hfocus : v.focus = "") : (v.select g).drawnNodes = g.nodes := by
  rw [select, if_pos hfocus, Selection.drawnNodes, List.map_map]
  exact List.map_id _

/-- What a view draws is a part of the graph. -/
theorem isSubgraph (v : View) (g : Graph) : (v.select g).IsSubgraph g := by
  by_cases hfocus : v.focus = ""
  · have hends : ∀ e ∈ (v.select g).drawnEdges, g.hasEdge e.source e.target :=
      fun e he => hasEdge_of_mem_drawnEdges he
    refine ⟨?_, hends, fun e he => ?_, fun e he => ?_⟩
    · rw [drawnNodes_select_whole hfocus]
      exact (Ordered.isOrdered_ofList g.ends).nodup
    · rw [Selection.hasNode_iff_mem_drawnNodes, drawnNodes_select_whole hfocus]
      exact Graph.mem_nodes.2 ⟨e.target, .inl (hends e he)⟩
    · rw [Selection.hasNode_iff_mem_drawnNodes, drawnNodes_select_whole hfocus]
      exact Graph.mem_nodes.2 ⟨e.source, .inr (hends e he)⟩
  · exact (Selection.isSubgraph_focused g v.focus).draws (draws_select hfocus g)

/-- A package that is drawn among the dependencies of the focus is the end of an edge drawn. -/
theorem exists_edge_of_hasNode_below (hp : (v.below g).hasNode p) (hne : p ≠ v.focus) :
    ∃ e ∈ (v.below g).drawnEdges, e.target = p := by
  rw [below] at hp ⊢
  split at hp
  next hshows =>
    rw [if_pos hshows]
    obtain ⟨w, hw, hlast⟩ := Selection.hasNode_addDependencies.1 hp
    obtain ⟨path, rfl, hpath, -, hlen⟩ := Graph.exists_of_mem_arrivals hw
    rcases List.eq_nil_or_concat path with rfl | ⟨path, q, rfl⟩
    · exact absurd (by simpa using hlast.symm) hne
    · rw [List.concat_eq_append, ← List.cons_append] at hw hlast hpath hlen
      rw [List.getLast?_concat, Option.some.injEq] at hlast
      subst hlast
      -- The walk that this one goes on from leads to the start of the edge.
      obtain ⟨r, hr⟩ : ∃ r, (v.focus :: path).getLast? = some r :=
        ⟨_, List.getLast?_eq_some_getLast (List.cons_ne_nil v.focus path)⟩
      have harrived := g.arrived_arrivals (v.hops g + 1) [v.focus]
      have hparent := harrived.mem_of_prefix hw (List.cons_ne_nil v.focus path)
        (List.prefix_append _ _)
      have hshort : (v.focus :: path).length ≤ v.hops g := by
        rw [List.length_append, List.length_singleton] at hlen
        omega
      exact ⟨⟨r, q⟩, Selection.mem_drawnEdges_addDependencies.2
        ⟨⟨_, hparent, hshort, hr⟩, hpath.hasEdge_concat hr⟩, rfl⟩
  next => exact absurd (Selection.hasNode_focused.1 hp).symm hne

/-- If an edge is drawn among the dependencies of the focus, one is drawn from the focus. -/
theorem exists_edge_of_focus_below (he : e ∈ (v.below g).drawnEdges) :
    ∃ e' ∈ (v.below g).drawnEdges, e'.source = v.focus := by
  rw [below] at he ⊢
  split at he
  next hshows =>
    rw [if_pos hshows]
    obtain ⟨⟨w, hw, hlen, hlast⟩, hedge⟩ := Selection.mem_drawnEdges_addDependencies.1 he
    obtain ⟨path, rfl, hpath, -, -⟩ := Graph.exists_of_mem_arrivals hw
    obtain ⟨q, hq⟩ : ∃ q, g.hasEdge v.focus q := by
      cases path with
      | nil =>
        have hsource : v.focus = e.source := by simpa using hlast
        exact ⟨e.target, hsource ▸ hedge⟩
      | cons q path => exact ⟨q, (List.isChain_cons_cons.1 hpath).1⟩
    have hspare : ([v.focus] : List Package).length ≤ v.hops g := by
      rw [List.length_cons] at hlen
      simp only [List.length_singleton]
      omega
    exact ⟨⟨v.focus, q⟩, Selection.mem_drawnEdges_addDependencies.2
      ⟨⟨_, g.singleton_mem_arrivals (v.hops g) v.focus, hspare, rfl⟩, hq⟩, rfl⟩
  next => exact absurd he List.not_mem_nil

/-- A package other than the focus is at an end of an edge drawn. -/
theorem exists_edge_of_hasNode (hfocus : v.focus ≠ "") (hp : (v.select g).hasNode p)
    (hne : p ≠ v.focus) : ∃ e ∈ (v.select g).drawnEdges, e.source = p ∨ e.target = p := by
  rw [select_of_focus hfocus] at hp ⊢
  split at hp
  next hshows =>
    rw [if_pos hshows, Selection.drawnEdges_addDependents]
    rcases Selection.hasNode_addDependents hp with hp | hedge
    · obtain ⟨e, he, htarget⟩ := exists_edge_of_hasNode_below hp hne
      exact ⟨e, List.mem_append_left _ he, .inr htarget⟩
    · have he : ⟨p, v.focus⟩ ∈ g.incoming v.focus := Graph.mem_incoming.2 ⟨rfl, hedge⟩
      exact ⟨_, List.mem_append_right _ he, .inl rfl⟩
  next hshows =>
    rw [if_neg hshows]
    obtain ⟨e, he, htarget⟩ := exists_edge_of_hasNode_below hp hne
    exact ⟨e, he, .inr htarget⟩

/-- If any edge is drawn, one is drawn from or to the focus. -/
theorem exists_edge_of_focus (hfocus : v.focus ≠ "") (he : e ∈ (v.select g).drawnEdges) :
    ∃ e' ∈ (v.select g).drawnEdges, e'.source = v.focus ∨ e'.target = v.focus := by
  rw [select_of_focus hfocus] at he ⊢
  split at he
  next hshows =>
    rw [if_pos hshows]
    rw [Selection.drawnEdges_addDependents] at he ⊢
    rcases List.mem_append.1 he with hbelow | hincoming
    · obtain ⟨e', he', hsource⟩ := exists_edge_of_focus_below hbelow
      exact ⟨e', List.mem_append_left _ he', .inl hsource⟩
    · exact ⟨e, he, .inr (Graph.mem_incoming.1 hincoming).1⟩
  next hshows =>
    rw [if_neg hshows]
    obtain ⟨e', he', hsource⟩ := exists_edge_of_focus_below he
    exact ⟨e', he', .inl hsource⟩

/-- A package is drawn without an edge only if it is the focus and no edge is drawn. -/
theorem mem_lonePackages_select : p ∈ (v.select g).lonePackages ↔
    v.focus ≠ "" ∧ p = v.focus ∧ (v.select g).drawnEdges = [] := by
  rw [Selection.mem_lonePackages]
  by_cases hfocus : v.focus = ""
  · refine iff_of_false ?_ fun h => h.1 hfocus
    rintro ⟨hp, hnone⟩
    rw [Selection.hasNode_iff_mem_drawnNodes, drawnNodes_select_whole hfocus] at hp
    rw [drawnEdges_select_whole hfocus] at hnone
    obtain ⟨q, hedge | hedge⟩ := Graph.mem_nodes.1 hp
    · exact hnone ⟨⟨p, q⟩, Graph.hasEdge_iff_mem_edges.1 hedge, .inl rfl⟩
    · exact hnone ⟨⟨q, p⟩, Graph.hasEdge_iff_mem_edges.1 hedge, .inr rfl⟩
  · rw [and_iff_right hfocus]
    constructor
    · rintro ⟨hp, hnone⟩
      obtain rfl : p = v.focus := by
        by_contra hne
        exact hnone (exists_edge_of_hasNode hfocus hp hne)
      refine ⟨rfl, List.eq_nil_iff_forall_not_mem.2 fun e he => hnone ?_⟩
      exact exists_edge_of_focus hfocus he
    · rintro ⟨rfl, hnil⟩
      refine ⟨(draws_select hfocus g).hasNode (Selection.hasNode_focused.2 rfl), ?_⟩
      rw [hnil]
      rintro ⟨e, he, -⟩
      exact absurd he List.not_mem_nil

end

/-- What a view draws is a part of the graph: no package is drawn twice, and the edges drawn are
edges of the graph that join packages drawn. The text has a line for each edge and one for each
package without an edge; if no package has a line break in its name, these are the lines it is split
into. A package that is drawn is at the end of an edge drawn or has a line of its own, one and not
both; and it has a line of its own only if it is the focus and no edge is drawn. -/
theorem isSubgraph_select (v : View) (g : Graph) (cycles : List Cycle) :
    (v.select g).IsSubgraph g ∧
    v.draw g cycles .text =
      ((v.select g).textLines (.ofCycles cycles)).flatMap (fun line => line ++ ("\n" : Text)) ∧
    ((∀ p ∈ (v.select g).drawnNodes, Text.byte '\n' ∉ p) →
      Text.splitOn (Text.byte '\n') (v.draw g cycles .text) =
        (v.select g).textLines (.ofCycles cycles) ++ [[]]) ∧
    (∀ p, (v.select g).hasNode p →
      Xor (∃ e ∈ (v.select g).drawnEdges, e.source = p ∨ e.target = p)
        (p ∈ (v.select g).lonePackages)) ∧
    (v.select g).lonePackages.Nodup ∧
    ∀ p, p ∈ (v.select g).lonePackages ↔
      v.focus ≠ "" ∧ p = v.focus ∧ (v.select g).drawnEdges = [] := by
  have hsubgraph := isSubgraph v g
  have hlines := (v.select g).toText_eq_lines (.ofCycles cycles)
  refine ⟨hsubgraph, hlines, fun hnodes => ?_, fun p hp => ?_, hsubgraph.nodup.filter _,
    fun p => mem_lonePackages_select⟩
  · show Text.splitOn _ ((v.select g).toText (.ofCycles cycles)) = _
    rw [hlines]
    exact Text.splitOn_flatMap_line (Selection.newline_notMem_textLines hsubgraph hnodes _)
  · by_cases hedge : ∃ e ∈ (v.select g).drawnEdges, e.source = p ∨ e.target = p
    · exact .inl ⟨hedge, fun hlone => (Selection.mem_lonePackages.1 hlone).2 hedge⟩
    · exact .inr ⟨Selection.mem_lonePackages.2 ⟨hp, hedge⟩, hedge⟩

/-- Around `a` and on both sides of it, the text of two packages that depend on each other is split
into the lines of the edges drawn. -/
theorem isSubgraph_select_mutualPair :
    (∀ p ∈ ((View.mk "a" .both true 0).select mutualPair).drawnNodes, Text.byte '\n' ∉ p) ∧
      Text.splitOn (Text.byte '\n') ((View.mk "a" .both true 0).draw mutualPair [["a", "b", "a"]]
        .text) = ["b -> a [cycle]", "a -> b [cycle]", "b -> a [cycle]", ""] :=
  have hnodes : ∀ p ∈ ((View.mk "a" .both true 0).select mutualPair).drawnNodes,
      Text.byte '\n' ∉ p := by decide +kernel
  have hmain := isSubgraph_select ⟨"a", .both, true, 0⟩ mutualPair [["a", "b", "a"]]
  ⟨hnodes, (hmain.2.2.1 hnodes).trans (by decide +kernel)⟩

end View

end PackageCycles
