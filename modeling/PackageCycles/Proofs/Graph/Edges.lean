import PackageCycles.Graph.Basic
import PackageCycles.Proofs.Ordered

/-!
# Graphs and their edges

A graph is determined by its edges: two graphs with the same edges are equal (`Graph.ext_hasEdge`),
because a strictly increasing list is determined by its elements. The edges of a
graph that is built from files are the pairs of named packages of which a file of the one imports
the other (`Graph.hasEdge_build`), whatever the order and the number of the files, and the packages
read off a graph are the sources of its edges (`Graph.mem_packages`).
-/

namespace PackageCycles

instance : Std.Asymm (· < · : Edge → Edge → Prop) where
  asymm a b := by
    rintro (hab | ⟨hab, hab'⟩) (hba | ⟨hba, hba'⟩)
    · exact Std.Asymm.asymm a.source b.source hab hba
    · exact Std.Irrefl.irrefl (r := (· < · : Text → Text → Prop)) b.source (hba ▸ hab)
    · exact Std.Irrefl.irrefl (r := (· < · : Text → Text → Prop)) b.source (hab ▸ hba)
    · exact Std.Asymm.asymm a.target b.target hab' hba'

instance : Std.Trichotomous (· < · : Edge → Edge → Prop) where
  trichotomous a b hab hba := by
    have hsource : a.source = b.source :=
      Std.Trichotomous.trichotomous (r := (· < · : Text → Text → Prop)) a.source b.source
        (fun h => hab (.inl h)) (fun h => hba (.inl h))
    have htarget : a.target = b.target :=
      Std.Trichotomous.trichotomous (r := (· < · : Text → Text → Prop)) a.target b.target
        (fun h => hab (.inr ⟨hsource, h⟩)) (fun h => hba (.inr ⟨hsource.symm, h⟩))
    cases a; cases b; cases hsource; cases htarget; rfl

namespace Graph

/-! ## Edges -/

section
variable {g h : Graph} {p q : Package}

/-- There is an edge exactly if it is listed. -/
theorem hasEdge_iff_mem_edges : g.hasEdge p q ↔ Edge.mk p q ∈ g.edges := by
  rw [hasEdge, decide_eq_true_iff]

/-- The one package is a dependency of the other exactly if there is an edge. -/
theorem hasEdge_iff_mem_dependencies : g.hasEdge p q ↔ q ∈ g.dependencies p :=
  hasEdge_iff_mem_edges.trans mem_dependencies.symm

/-- Graphs with the same edges are equal. -/
theorem ext_hasEdge (heq : ∀ p q, g.hasEdge p q ↔ h.hasEdge p q) : g = h := by
  have hedges : g.edges = h.edges := g.ordered.ext h.ordered fun ⟨p, q⟩ => by
    rw [← hasEdge_iff_mem_edges, ← hasEdge_iff_mem_edges, heq]
  cases g; cases h; cases hedges; rfl

/-- The edges after an insertion are the one inserted, if it is named, and those from before. -/
theorem hasEdge_insert {e : Edge} :
    (g.insert e).hasEdge p q ↔ (e.IsNamed ∧ Edge.mk p q = e) ∨ g.hasEdge p q := by
  unfold insert
  split
  next hnamed =>
    rw [hasEdge_iff_mem_edges, hasEdge_iff_mem_edges]
    show Edge.mk p q ∈ Ordered.insert e g.edges ↔ _
    rw [Ordered.mem_insert]
    simp [hnamed]
  next hnamed => simp [hnamed]

/-- The edges added for a package are those to its named dependencies. -/
theorem hasEdge_addEdges {package : Package} {dependencies : List Package} :
    (g.addEdges package dependencies).hasEdge p q ↔
      (p = package ∧ q ∈ dependencies ∧ p ≠ [] ∧ q ≠ []) ∨ g.hasEdge p q := by
  unfold addEdges
  induction dependencies generalizing g with
  | nil => simp
  | cons dependency rest ih =>
    rw [List.foldl_cons, ih, hasEdge_insert, List.mem_cons, Edge.mk.injEq, Edge.IsNamed]
    constructor
    · rintro (⟨hp, hq, hne⟩ | ⟨hne, rfl, rfl⟩ | h)
      · exact .inl ⟨hp, .inr hq, hne⟩
      · exact .inl ⟨rfl, .inl rfl, hne⟩
      · exact .inr h
    · rintro (⟨rfl, rfl | hq, hne⟩ | h)
      · exact .inr (.inl ⟨hne, rfl, rfl⟩)
      · exact .inl ⟨rfl, hq, hne⟩
      · exact .inr (.inr h)

/-- The edges of the graph of files join the named package of a file to the named packages that it
imports. -/
theorem hasEdge_build {files : List FileDependencies} :
    (build files).hasEdge p q ↔
      (∃ file ∈ files, file.package = p ∧ q ∈ file.imports) ∧ p ≠ [] ∧ q ≠ [] := by
  unfold build
  suffices ∀ g : Graph,
      (files.foldl (fun g file => g.addEdges file.package file.imports) g).hasEdge p q ↔
        ((∃ file ∈ files, file.package = p ∧ q ∈ file.imports) ∧ p ≠ [] ∧ q ≠ []) ∨
          g.hasEdge p q by
    rw [this empty]
    simp [empty, hasEdge]
  induction files with
  | nil => simp
  | cons file rest ih =>
    intro g
    rw [List.foldl_cons, ih, hasEdge_addEdges]
    simp only [List.mem_cons, exists_eq_or_imp]
    constructor
    · rintro (⟨h, hne⟩ | ⟨rfl, hq, hne⟩ | h)
      · exact .inl ⟨.inr h, hne⟩
      · exact .inl ⟨.inl ⟨rfl, hq⟩, hne⟩
      · exact .inr h
    · rintro (⟨⟨rfl, hq⟩ | h, hne⟩ | h)
      · exact .inr (.inl ⟨rfl, hq, hne⟩)
      · exact .inl ⟨h, hne⟩
      · exact .inr (.inr h)

/-- The packages are those that depend on something. -/
theorem mem_packages : p ∈ g.packages ↔ ∃ q, g.hasEdge p q := by
  rw [packages, Ordered.mem_ofList, List.mem_map]
  constructor
  · rintro ⟨⟨p, q⟩, he, rfl⟩
    exact ⟨q, hasEdge_iff_mem_edges.2 he⟩
  · rintro ⟨q, hq⟩
    exact ⟨⟨p, q⟩, hasEdge_iff_mem_edges.1 hq, rfl⟩

/-- A package that is not among them has no dependencies. -/
theorem dependencies_eq_nil_of_notMem_packages (h : p ∉ g.packages) : g.dependencies p = [] :=
  List.eq_nil_iff_forall_not_mem.2 fun _ hq =>
    h (mem_packages.2 ⟨_, hasEdge_iff_mem_dependencies.2 hq⟩)

/-- The dependents of a package are the packages with an edge to it. -/
theorem mem_dependents : q ∈ g.dependents p ↔ g.hasEdge q p := by
  simp only [dependents, List.mem_filterMap, Option.ite_none_right_eq_some, Option.some.injEq,
    hasEdge_iff_mem_edges]
  constructor
  · rintro ⟨⟨s, t⟩, h, rfl, rfl⟩
    exact h
  · exact fun h => ⟨_, h, rfl, rfl⟩

/-- The nodes are the packages at either end of an edge. -/
theorem mem_nodes : p ∈ g.nodes ↔ ∃ q, g.hasEdge p q ∨ g.hasEdge q p := by
  rw [nodes, Ordered.mem_ofList, ends, List.mem_flatMap]
  constructor
  · rintro ⟨⟨source, target⟩, he, hp⟩
    have hedge := hasEdge_iff_mem_edges.2 he
    rcases List.mem_pair.1 hp with rfl | rfl
    · exact ⟨target, .inl hedge⟩
    · exact ⟨source, .inr hedge⟩
  · rintro ⟨q, hq | hq⟩
    · exact ⟨⟨p, q⟩, hasEdge_iff_mem_edges.1 hq, List.mem_pair.2 (.inl rfl)⟩
    · exact ⟨⟨q, p⟩, hasEdge_iff_mem_edges.1 hq, List.mem_pair.2 (.inr rfl)⟩

/-- The dependencies of a package come in increasing order. -/
theorem isOrdered_dependencies (g : Graph) (p : Package) :
    Ordered.IsOrdered (g.dependencies p) := by
  refine List.pairwise_filterMap.2 (g.ordered.imp fun {a b} hab q hq r hr => ?_)
  simp only [Option.ite_none_right_eq_some, Option.some.injEq] at hq hr
  obtain ⟨ha, rfl⟩ := hq
  obtain ⟨hb, rfl⟩ := hr
  rcases hab with hab | ⟨-, hab⟩
  · exact absurd (ha.trans hb.symm ▸ hab) (Std.Irrefl.irrefl (r := (· < · : Text → Text → Prop)) _)
  · exact hab

/-- So do its dependents. -/
theorem isOrdered_dependents (g : Graph) (p : Package) : Ordered.IsOrdered (g.dependents p) := by
  refine List.pairwise_filterMap.2 (g.ordered.imp fun {a b} hab q hq r hr => ?_)
  simp only [Option.ite_none_right_eq_some, Option.some.injEq] at hq hr
  obtain ⟨ha, rfl⟩ := hq
  obtain ⟨hb, rfl⟩ := hr
  rcases hab with hab | ⟨-, hab⟩
  · exact hab
  · exact absurd (ha.trans hb.symm ▸ hab) (Std.Irrefl.irrefl (r := (· < · : Text → Text → Prop)) _)

end

/-! ## Parts of a graph -/

/-- The graph with only the edges that `keep` keeps. -/
def filter (g : Graph) (keep : Edge → Bool) : Graph where
  edges := g.edges.filter keep
  ordered := g.ordered.filter keep
  named e he := g.named e (List.mem_of_mem_filter he)

/-- The edges that are kept are those of the graph that `keep` keeps. -/
theorem hasEdge_filter {g : Graph} {keep : Edge → Bool} {p q : Package} :
    (g.filter keep).hasEdge p q ↔ g.hasEdge p q ∧ keep ⟨p, q⟩ := by
  rw [hasEdge_iff_mem_edges, hasEdge_iff_mem_edges]
  exact List.mem_filter

end Graph

end PackageCycles
