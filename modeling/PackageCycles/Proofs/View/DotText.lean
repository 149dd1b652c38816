import PackageCycles.Proofs.Text.Quoting
import PackageCycles.Proofs.View.Subgraph

/-!
# What a Graphviz document tells

A Graphviz document is a list of statements between a head and a foot, one for each node and one for
each edge (`Selection.toDot_eq`). A statement begins with a quoted name, which tells the name and
what comes behind it; an arrow follows only if the statement is one of an edge, and the attributes
are of a few kinds none of which starts with another. So statements are prefix free
(`DotStatement.prefixFree_text`), and a document tells its statements (`DotStatement.document_inj`)
whatever the names of the packages are. The document of a whole graph tells the graph and what is
marked in it (`View.draw_dot_whole_eq_iff`).
-/

namespace PackageCycles

/-- A statement of a Graphviz document. -/
inductive DotStatement where
  /-- A package is drawn, bold if it is the focus and red if it lies on a cycle. -/
  | node (p : Package) (bold red : Bool)
  /-- An edge is drawn, dashed if it is more than one hop away and red if it lies on a cycle. -/
  | edge (e : Edge) (dashed red : Bool)

namespace DotStatement

/-- The attributes of an element that may have a style and may be red. -/
def attributes (style : Text) (styled red : Bool) : Text :=
  Selection.dotAttributes
    ((if styled then [style] else []) ++ (if red then ["color=red"] else [] : List Text))

/-- The line of a statement. -/
def text : DotStatement → Text
  | .node p bold red => "  " ++ p.quoted ++ attributes "style=bold" bold red
  | .edge e dashed red =>
    "  " ++ e.source.quoted ++ " -> " ++ e.target.quoted ++ attributes "style=dashed" dashed red

/-- The document with the given statements. -/
def document (statements : List DotStatement) : Text :=
  "digraph packages \x7b\n  rankdir=LR;\n  node [shape=box];\n" ++ statements.flatMap text ++
    "\x7d\n"

/-- The edge that is drawn. -/
def edge? : DotStatement → Option Edge
  | .node _ _ _ => none
  | .edge e _ _ => some e

/-! ## Statements can be told from each other -/

section
variable {style x y : Text} {styled styled' red red' : Bool}
  {statements statements' : List DotStatement}

/-- Attributes tell which they are, and what comes behind them. -/
theorem attributes_append_inj (hstyle : style = "style=bold" ∨ style = "style=dashed")
    (h : attributes style styled red ++ x = attributes style styled' red' ++ y) :
    styled = styled' ∧ red = red' ∧ x = y := by
  have hprefix : ∀ a b : Bool × Bool,
      attributes style a.1 a.2 <+: attributes style b.1 b.2 → a = b := by
    rintro ⟨styled, red⟩ ⟨styled', red'⟩
    revert styled red styled' red'
    rcases hstyle with rfl | rfl
    · decide
    · decide
  have hfree : Text.PrefixFree (fun _ => True) fun a : Bool × Bool => attributes style a.1 a.2 :=
    Text.PrefixFree.of_prefix hprefix
  obtain ⟨hflags, hrest⟩ := hfree (a := (styled, red)) (b := (styled', red')) trivial trivial h
  cases hflags
  exact ⟨rfl, rfl, hrest⟩

/-- Attributes do not look like an arrow. -/
theorem attributes_append_ne_arrow (styled red : Bool) :
    attributes "style=bold" styled red ++ x ≠ " -> " ++ y := by
  refine Text.append_ne_append ?_ ?_
  · revert styled red
    decide
  · revert styled red
    decide

/-- Statements are prefix free. -/
theorem prefixFree_text : Text.PrefixFree (fun _ => True) text := by
  intro s t x y _ _ h
  match s, t with
  | .node p bold red, .node q bold' red' =>
    simp only [text, List.append_assoc] at h
    obtain ⟨rfl, hattributes⟩ := Text.quoted_append_inj (List.append_cancel_left h)
    obtain ⟨rfl, rfl, hrest⟩ := attributes_append_inj (.inl rfl) hattributes
    exact ⟨rfl, hrest⟩
  | .node p bold red, .edge e dashed red' =>
    simp only [text, List.append_assoc] at h
    obtain ⟨-, hrest⟩ := Text.quoted_append_inj (List.append_cancel_left h)
    exact absurd hrest (attributes_append_ne_arrow bold red)
  | .edge e dashed red, .node p bold red' =>
    simp only [text, List.append_assoc] at h
    obtain ⟨-, hrest⟩ := Text.quoted_append_inj (List.append_cancel_left h)
    exact absurd hrest.symm (attributes_append_ne_arrow bold red')
  | .edge ⟨p, q⟩ dashed red, .edge ⟨p', q'⟩ dashed' red' =>
    simp only [text, List.append_assoc] at h
    obtain ⟨rfl, harrow⟩ := Text.quoted_append_inj (List.append_cancel_left h)
    obtain ⟨rfl, hattributes⟩ := Text.quoted_append_inj (List.append_cancel_left harrow)
    obtain ⟨rfl, rfl, hrest⟩ := attributes_append_inj (.inr rfl) hattributes
    exact ⟨rfl, hrest⟩

/-- A document tells its statements. -/
theorem document_inj (h : document statements = document statements') :
    statements = statements' := by
  have hstop : ∀ {s : DotStatement} {x y : Text}, True → s.text ++ x ≠ "\x7d\n" ++ y := by
    intro s x y _
    cases s with
    | node p bold red =>
      simp only [text, List.append_assoc]
      exact Text.append_ne_append (by decide) (by decide)
    | edge e dashed red =>
      simp only [text, List.append_assoc]
      exact Text.append_ne_append (by decide) (by decide)
  rw [document, document, List.append_assoc, List.append_assoc] at h
  have hlines := List.append_cancel_left h
  rw [← List.append_nil ("\x7d\n" : Text)] at hlines
  exact (prefixFree_text.flatMap hstop (fun _ _ => trivial) (fun _ _ => trivial) hlines).1

end

end DotStatement

/-! ## Drawings as documents -/

namespace DotStatement

/-- The statement of a package that is drawn. -/
def ofNode (onNode : Package → Bool) (node : Package × NodeRole) : DotStatement :=
  .node node.1 (node.2 = .current) (onNode node.1)

/-- The statement of an edge that is drawn. -/
def ofEdge (onEdge : Edge → Bool) (edge : Edge × EdgeRole) : DotStatement :=
  .edge edge.1 (edge.2 = .transitive) (onEdge edge.1)

end DotStatement

namespace Selection

/-- The statements of the drawing with the given packages and edges marked. -/
def statements (s : Selection) (onNode : Package → Bool) (onEdge : Edge → Bool) :
    List DotStatement :=
  s.nodes.map (.ofNode onNode) ++ s.edges.map (.ofEdge onEdge)

section
variable {s : Selection} {onNode onNode' : Package → Bool} {onEdge onEdge' : Edge → Bool}

/-- A drawing is the document of its statements. -/
theorem toDot_eq (s : Selection) (h : Highlight) :
    s.toDot h = DotStatement.document (s.statements h.hasNode h.hasEdge) := by
  rw [toDot, DotStatement.document, statements, List.flatMap_append, List.flatMap_map,
    List.flatMap_map]
  simp only [DotStatement.ofNode, DotStatement.ofEdge, DotStatement.text, DotStatement.attributes,
    decide_eq_true_eq, List.append_assoc]

/-- The statements tell the edges drawn. -/
theorem filterMap_edge?_statements :
    (s.statements onNode onEdge).filterMap DotStatement.edge? = s.drawnEdges := by
  have hnodes : (s.nodes.map (.ofNode onNode)).filterMap DotStatement.edge? = [] := by
    rw [List.filterMap_map, List.filterMap_eq_nil_iff]
    exact fun _ _ => rfl
  have hedges : (s.edges.map (.ofEdge onEdge)).filterMap DotStatement.edge? = s.drawnEdges := by
    rw [List.filterMap_map, drawnEdges, ← List.filterMap_eq_map]
    rfl
  rw [statements, List.filterMap_append, hnodes, hedges, List.nil_append]

/-- The statements of a drawing tell what is marked of it. -/
theorem statements_eq_iff : s.statements onNode onEdge = s.statements onNode' onEdge' ↔
    (∀ p ∈ s.drawnNodes, onNode p = onNode' p) ∧
      ∀ e ∈ s.drawnEdges, onEdge e = onEdge' e := by
  rw [statements, statements, drawnNodes, drawnEdges, List.forall_mem_map, List.forall_mem_map]
  constructor
  · intro h
    obtain ⟨hnodes, hedges⟩ := List.append_inj h (by rw [List.length_map, List.length_map])
    refine ⟨fun node hnode => ?_, fun edge hedge => ?_⟩
    · exact (DotStatement.node.inj (List.map_inj_left.1 hnodes node hnode)).2.2
    · exact (DotStatement.edge.inj (List.map_inj_left.1 hedges edge hedge)).2.2
  · rintro ⟨hnodes, hedges⟩
    have hnodes' : s.nodes.map (DotStatement.ofNode onNode) =
        s.nodes.map (DotStatement.ofNode onNode') :=
      List.map_inj_left.2 fun node hnode => congrArg (DotStatement.node _ _) (hnodes node hnode)
    have hedges' : s.edges.map (DotStatement.ofEdge onEdge) =
        s.edges.map (DotStatement.ofEdge onEdge') :=
      List.map_inj_left.2 fun edge hedge => congrArg (DotStatement.edge _ _) (hedges edge hedge)
    rw [hnodes', hedges']

end

end Selection

namespace View

/-- The Graphviz document of a whole graph tells the graph, whatever the names of its packages are,
and what is marked in it: two such documents are the same text exactly if the graphs have the same
edges and the same of their packages and edges lie on the given cycles. -/
theorem draw_dot_whole_eq_iff (g g' : Graph) (cycles cycles' : List Cycle) :
    whole.draw g cycles .dot = whole.draw g' cycles' .dot ↔
      g = g' ∧
      (∀ p ∈ g.nodes, (Highlight.ofCycles cycles).hasNode p =
        (Highlight.ofCycles cycles').hasNode p) ∧
      ∀ e ∈ g.edges, (Highlight.ofCycles cycles).hasEdge e =
        (Highlight.ofCycles cycles').hasEdge e := by
  have hdraw : ∀ (g : Graph) (cycles : List Cycle), whole.draw g cycles .dot =
      DotStatement.document ((whole.select g).statements (Highlight.ofCycles cycles).hasNode
        (Highlight.ofCycles cycles).hasEdge) :=
    fun g cycles => Selection.toDot_eq (whole.select g) (.ofCycles cycles)
  have hmarks : (whole.select g).statements (Highlight.ofCycles cycles).hasNode
      (Highlight.ofCycles cycles).hasEdge = (whole.select g).statements
      (Highlight.ofCycles cycles').hasNode (Highlight.ofCycles cycles').hasEdge ↔ _ :=
    Selection.statements_eq_iff
  rw [drawnNodes_select_whole rfl, drawnEdges_select_whole rfl] at hmarks
  rw [hdraw, hdraw, ← hmarks]
  constructor
  · intro h
    have hstatements := DotStatement.document_inj h
    have hedges := congrArg (List.filterMap DotStatement.edge?) hstatements
    rw [Selection.filterMap_edge?_statements, Selection.filterMap_edge?_statements,
      drawnEdges_select_whole rfl, drawnEdges_select_whole rfl] at hedges
    obtain rfl : g = g' := Graph.ext_hasEdge fun p q => by
      rw [Graph.hasEdge_iff_mem_edges, Graph.hasEdge_iff_mem_edges, hedges]
    exact ⟨rfl, hstatements⟩
  · rintro ⟨rfl, hstatements⟩
    rw [hstatements]

/-- An arrow between quotation marks is told from one that is part of a name. -/
theorem draw_dot_whole_ne_quotedArrow :
    whole.draw (.build [⟨"a\" -> \"b", ["c"]⟩]) [] .dot ≠
      whole.draw (.build [⟨"a", ["b\" -> \"c"]⟩]) [] .dot := by
  intro h
  have hgraph := ((draw_dot_whole_eq_iff _ _ [] []).1 h).1
  have hedges : (Graph.build [⟨"a\" -> \"b", ["c"]⟩]).edges ≠
      (Graph.build [⟨"a", ["b\" -> \"c"]⟩]).edges := by
    decide +kernel
  exact hedges (congrArg Graph.edges hgraph)

end View

end PackageCycles
