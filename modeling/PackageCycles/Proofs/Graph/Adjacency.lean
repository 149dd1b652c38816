import Mathlib.Data.List.Induction
import PackageCycles.Detector
import PackageCycles.Proofs.Graph.Edges
import PackageCycles.View.Drawing

/-!
# The table of dependencies

The edges of a graph can be kept as a table: each package with the set of its dependencies
(`Adjacency`). Adding edges fills the set of one package and takes the package out again if its set
has stayed empty, so that no package is without dependencies (`IsSound.addEdges`, and
`isSound_ofFiles` for any history of additions). A table is determined by which package is in which
set (`IsSound.ext`), so the table made by a history of additions is the one that
`Graph.adjacency` reads off the graph made by it (`Graph.adjacency_build`), and every query on the
graph can be answered from it (`Graph.answersFrom_adjacency`). Since a graph keeps nothing of the
files but which named package imports which, the order and the division of the files do not matter
to the cycles detected nor to the drawings (`Graph.build_answersFrom`).
-/

namespace PackageCycles

/-- Packages with the sets of their dependencies, in increasing order. -/
abbrev Adjacency := List (Package × List Package)

namespace Adjacency

/-- The dependencies of a package; a package that is not listed has none. -/
def targets (a : Adjacency) (p : Package) : List Package := (a.lookup p).getD []

/-- The set with one more dependency; the empty name is left out. -/
def addTarget (set : List Package) (q : Package) : List Package :=
  if q = [] then set else Ordered.insert q set

/-- The table with an edge from `package` to each of `dependencies`. A package whose set stays empty
is not listed. -/
def addEdges (a : Adjacency) (package : Package) (dependencies : List Package) : Adjacency :=
  if package = [] ∨ dependencies = [] then a
  else
    let filled : Adjacency :=
      Ordered.assign package (dependencies.foldl addTarget (a.targets package)) a
    if filled.targets package = [] then filled.filter (·.1 ≠ package) else filled

/-- The table of a list of files. -/
def ofFiles (files : List FileDependencies) : Adjacency :=
  files.foldl (fun a file => a.addEdges file.package file.imports) []

/-- Packages and sets are in order, all names are proper ones, and no set is empty. -/
structure IsSound (a : Adjacency) : Prop where
  /-- The packages increase strictly. -/
  ordered : Ordered.IsOrdered (a.map Prod.fst)
  /-- The dependencies of each increase strictly. -/
  targets_ordered : ∀ p set, (p, set) ∈ a → Ordered.IsOrdered set
  /-- No package is the empty name. -/
  named : ∀ p set, (p, set) ∈ a → p ≠ []
  /-- No dependency is the empty name. -/
  targets_named : ∀ p set, (p, set) ∈ a → [] ∉ set
  /-- No package is without dependencies. -/
  nonempty : ∀ p set, (p, set) ∈ a → set ≠ []

section
variable {a b : Adjacency} {p q package : Package} {set dependencies : List Package}

/-! ## Sets of dependencies -/

theorem mem_foldl_addTarget :
    q ∈ dependencies.foldl addTarget set ↔ q ∈ set ∨ q ∈ dependencies ∧ q ≠ [] := by
  induction dependencies generalizing set with
  | nil => simp
  | cons r rest ih =>
    rw [List.foldl_cons, ih, addTarget, List.mem_cons]
    split
    next hr =>
      constructor
      · rintro (h | ⟨h, hq⟩)
        · exact .inl h
        · exact .inr ⟨.inr h, hq⟩
      · rintro (h | ⟨rfl | h, hq⟩)
        · exact .inl h
        · exact absurd hr hq
        · exact .inr ⟨h, hq⟩
    next hr =>
      rw [Ordered.mem_insert]
      constructor
      · rintro ((rfl | h) | ⟨h, hq⟩)
        · exact .inr ⟨.inl rfl, hr⟩
        · exact .inl h
        · exact .inr ⟨.inr h, hq⟩
      · rintro (h | ⟨rfl | h, hq⟩)
        · exact .inl (.inr h)
        · exact .inl (.inl rfl)
        · exact .inr ⟨h, hq⟩

theorem isOrdered_foldl_addTarget (h : Ordered.IsOrdered set) :
    Ordered.IsOrdered (dependencies.foldl addTarget set) := by
  induction dependencies generalizing set with
  | nil => exact h
  | cons r rest ih =>
    rw [List.foldl_cons]
    refine ih ?_
    unfold addTarget
    split
    · exact h
    · exact h.insert r

/-! ## Sound tables -/

theorem isSound_nil : IsSound [] :=
  ⟨.nil, fun _ _ h => (nomatch h), fun _ _ h => (nomatch h), fun _ _ h => (nomatch h),
    fun _ _ h => nomatch h⟩

/-- The dependencies of a package that is listed are the set beside it. -/
theorem IsSound.targets_eq (h : a.IsSound) (hmem : (p, set) ∈ a) : a.targets p = set := by
  rw [targets, (Ordered.lookup_eq_some_iff h.ordered).2 hmem, Option.getD_some]

/-- A package has a dependency exactly if it is listed with a set that holds the dependency. -/
theorem IsSound.mem_targets (h : a.IsSound) : q ∈ a.targets p ↔ ∃ set, (p, set) ∈ a ∧ q ∈ set := by
  constructor
  · intro hq
    rw [targets] at hq
    cases hset : a.lookup p with
    | none =>
      rw [hset] at hq
      exact nomatch hq
    | some set =>
      rw [hset] at hq
      exact ⟨set, (Ordered.lookup_eq_some_iff h.ordered).1 hset, hq⟩
  · rintro ⟨set, hmem, hq⟩
    exact h.targets_eq hmem ▸ hq

/-- The packages that are listed are those that have a dependency. -/
theorem IsSound.mem_keys (h : a.IsSound) : p ∈ a.map Prod.fst ↔ ∃ q, q ∈ a.targets p := by
  constructor
  · intro hp
    obtain ⟨⟨p, set⟩, hmem, rfl⟩ := List.mem_map.1 hp
    obtain ⟨q, hq⟩ := List.exists_mem_of_ne_nil set (h.nonempty p set hmem)
    exact ⟨q, h.mem_targets.2 ⟨set, hmem, hq⟩⟩
  · rintro ⟨q, hq⟩
    obtain ⟨set, hmem, -⟩ := h.mem_targets.1 hq
    exact List.mem_map_of_mem hmem

theorem IsSound.isOrdered_targets (h : a.IsSound) (p : Package) :
    Ordered.IsOrdered (a.targets p) := by
  rw [targets]
  cases hset : a.lookup p with
  | none => exact .nil
  | some set => exact h.targets_ordered p set ((Ordered.lookup_eq_some_iff h.ordered).1 hset)

/-- A table lists the packages that have a dependency, each with its dependencies. -/
theorem IsSound.map_targets (h : a.IsSound) :
    (a.map Prod.fst).map (fun p => (p, a.targets p)) = a := by
  rw [List.map_map]
  conv_rhs => rw [← List.map_id a]
  refine List.map_congr_left fun ⟨p, set⟩ hmem => ?_
  exact Prod.ext rfl (h.targets_eq hmem)

/-- Tables with the same dependencies are equal. -/
theorem IsSound.ext (ha : a.IsSound) (hb : b.IsSound)
    (h : ∀ p q, q ∈ a.targets p ↔ q ∈ b.targets p) : a = b := by
  have hkeys : a.map Prod.fst = b.map Prod.fst := ha.ordered.ext hb.ordered fun p => by
    rw [ha.mem_keys, hb.mem_keys]
    exact exists_congr fun q => h p q
  have htargets : a.targets = b.targets := funext fun p =>
    (ha.isOrdered_targets p).ext (hb.isOrdered_targets p) fun q => h p q
  rw [← ha.map_targets, ← hb.map_targets, hkeys, htargets]

/-! ## Histories of additions -/

/-- Adding edges to named dependencies leaves the other packages as they are, and the package is
listed with its enlarged set unless this has stayed empty. -/
theorem IsSound.mem_addEdges (h : a.IsSound) (hpackage : package ≠ [])
    (hdependencies : dependencies ≠ []) :
    (p, set) ∈ a.addEdges package dependencies ↔
      (p = package ∧ set = dependencies.foldl addTarget (a.targets package) ∧ set ≠ []) ∨
        (p ≠ package ∧ (p, set) ∈ a) := by
  have hordered := Ordered.isOrdered_keys_assign h.ordered package
    (dependencies.foldl addTarget (a.targets package))
  have htargets : targets (Ordered.assign package
      (dependencies.foldl addTarget (a.targets package)) a) package =
        dependencies.foldl addTarget (a.targets package) := by
    have hassigned := (Ordered.lookup_eq_some_iff hordered).2
      ((Ordered.mem_assign h.ordered).2 (.inl ⟨rfl, rfl⟩))
    rw [targets, hassigned, Option.getD_some]
  unfold addEdges
  rw [if_neg (by simp [hpackage, hdependencies])]
  dsimp only
  rw [htargets]
  split
  next hempty =>
    rw [List.mem_filter, Ordered.mem_assign h.ordered, hempty]
    simp only [decide_not, Bool.not_eq_true', decide_eq_false_iff_not]
    constructor
    · rintro ⟨⟨hp, -⟩ | hother, hne⟩
      · exact absurd hp hne
      · exact .inr hother
    · rintro (⟨-, hset, hne⟩ | ⟨hne, hmem⟩)
      · exact absurd hset hne
      · exact ⟨.inr ⟨hne, hmem⟩, hne⟩
  next hne =>
    rw [Ordered.mem_assign h.ordered]
    constructor
    · rintro (⟨hp, hset⟩ | hother)
      · exact .inl ⟨hp, hset, hset ▸ hne⟩
      · exact .inr hother
    · rintro (⟨hp, hset, -⟩ | hother)
      · exact .inl ⟨hp, hset⟩
      · exact .inr hother

/-- Adding edges leaves the packages in order. -/
theorem IsSound.isOrdered_addEdges (h : a.IsSound) (package : Package)
    (dependencies : List Package) :
    Ordered.IsOrdered ((a.addEdges package dependencies).map Prod.fst) := by
  have hassign := Ordered.isOrdered_keys_assign h.ordered package
    (dependencies.foldl addTarget (a.targets package))
  unfold addEdges
  split
  · exact h.ordered
  · dsimp only
    split
    · exact hassign.sublist (List.filter_sublist.map Prod.fst)
    · exact hassign

/-- Adding edges keeps a table sound. -/
theorem IsSound.addEdges (h : a.IsSound) (package : Package) (dependencies : List Package) :
    (a.addEdges package dependencies).IsSound := by
  by_cases hskip : package = [] ∨ dependencies = []
  · rw [Adjacency.addEdges, if_pos hskip]
    exact h
  obtain ⟨hpackage, hdependencies⟩ := not_or.1 hskip
  have htargets : [] ∉ dependencies.foldl addTarget (a.targets package) := fun hmem => by
    rcases mem_foldl_addTarget.1 hmem with hmem | ⟨-, hne⟩
    · obtain ⟨set, hset, hmem⟩ := h.mem_targets.1 hmem
      exact h.targets_named package set hset hmem
    · exact hne rfl
  refine ⟨h.isOrdered_addEdges package dependencies, fun p set hset => ?_, fun p set hset => ?_,
    fun p set hset => ?_, fun p set hset => ?_⟩ <;>
    rcases (h.mem_addEdges hpackage hdependencies).1 hset with ⟨rfl, rfl, hne⟩ | ⟨-, hold⟩
  · exact isOrdered_foldl_addTarget (h.isOrdered_targets p)
  · exact h.targets_ordered p set hold
  · exact hpackage
  · exact h.named p set hold
  · exact htargets
  · exact h.targets_named p set hold
  · exact hne
  · exact h.nonempty p set hold

/-- The dependencies after an addition are those added between proper names, and those from
before. -/
theorem IsSound.mem_targets_addEdges (h : a.IsSound) :
    q ∈ (a.addEdges package dependencies).targets p ↔
      (p = package ∧ q ∈ dependencies ∧ p ≠ [] ∧ q ≠ []) ∨ q ∈ a.targets p := by
  by_cases hskip : package = [] ∨ dependencies = []
  · rw [Adjacency.addEdges, if_pos hskip, or_iff_right]
    rintro ⟨rfl, hq, hp, -⟩
    rcases hskip with rfl | rfl
    · exact hp rfl
    · exact List.not_mem_nil hq
  obtain ⟨hpackage, hdependencies⟩ := not_or.1 hskip
  rw [(h.addEdges package dependencies).mem_targets]
  simp only [h.mem_addEdges hpackage hdependencies]
  constructor
  · rintro ⟨set, ⟨rfl, rfl, -⟩ | ⟨-, hmem⟩, hq⟩
    · rcases mem_foldl_addTarget.1 hq with hq | ⟨hq, hne⟩
      · exact .inr hq
      · exact .inl ⟨rfl, hq, hpackage, hne⟩
    · exact .inr (h.mem_targets.2 ⟨set, hmem, hq⟩)
  · rintro (⟨rfl, hq, -, hne⟩ | hq)
    · have hq : q ∈ dependencies.foldl addTarget (a.targets p) :=
        mem_foldl_addTarget.2 (.inr ⟨hq, hne⟩)
      exact ⟨_, .inl ⟨rfl, rfl, List.ne_nil_of_mem hq⟩, hq⟩
    · by_cases hp : p = package
      · subst hp
        have hq : q ∈ dependencies.foldl addTarget (a.targets p) :=
          mem_foldl_addTarget.2 (.inl hq)
        exact ⟨_, .inl ⟨rfl, rfl, List.ne_nil_of_mem hq⟩, hq⟩
      · obtain ⟨set, hmem, hq⟩ := h.mem_targets.1 hq
        exact ⟨set, .inr ⟨hp, hmem⟩, hq⟩

/-- Any history of additions makes a sound table. -/
theorem isSound_ofFiles (files : List FileDependencies) : (ofFiles files).IsSound := by
  induction files using List.reverseRecOn with
  | nil => exact isSound_nil
  | append_singleton files file ih =>
    rw [ofFiles, List.foldl_concat]
    exact ih.addEdges file.package file.imports

end

end Adjacency

namespace Graph

open Adjacency (IsSound)

section
variable {g : Graph} {p q : Package}

/-! ## The table of a graph -/

/-- The table read off a graph lists the packages that depend on something. -/
theorem map_fst_adjacency (g : Graph) : g.adjacency.map Prod.fst = g.packages := by
  rw [adjacency, List.map_map]
  exact List.map_id _

theorem mem_adjacency {set : List Package} :
    (p, set) ∈ g.adjacency ↔ p ∈ g.packages ∧ set = g.dependencies p := by
  rw [adjacency, List.mem_map]
  constructor
  · rintro ⟨p, hp, heq⟩
    cases heq
    exact ⟨hp, rfl⟩
  · rintro ⟨hp, rfl⟩
    exact ⟨p, hp, rfl⟩

theorem isSound_adjacency (g : Graph) : IsSound g.adjacency where
  ordered := by
    rw [map_fst_adjacency]
    exact Ordered.isOrdered_ofList _
  targets_ordered p set h := by
    obtain ⟨-, rfl⟩ := mem_adjacency.1 h
    exact g.isOrdered_dependencies p
  named p set h := by
    obtain ⟨q, hq⟩ := mem_packages.1 (mem_adjacency.1 h).1
    exact (g.named _ (hasEdge_iff_mem_edges.1 hq)).1
  targets_named p set h hmem := by
    obtain ⟨-, rfl⟩ := mem_adjacency.1 h
    exact (g.named _ (mem_dependencies.1 hmem)).2 rfl
  nonempty p set h := by
    obtain ⟨hp, rfl⟩ := mem_adjacency.1 h
    obtain ⟨q, hq⟩ := mem_packages.1 hp
    exact List.ne_nil_of_mem (hasEdge_iff_mem_dependencies.1 hq)

/-- The table read off a graph gives each package its dependencies. -/
theorem targets_adjacency (g : Graph) (p : Package) :
    Adjacency.targets g.adjacency p = g.dependencies p := by
  refine (g.isSound_adjacency.isOrdered_targets p).ext (g.isOrdered_dependencies p) fun q => ?_
  rw [g.isSound_adjacency.mem_targets]
  constructor
  · rintro ⟨set, hmem, hq⟩
    obtain ⟨-, rfl⟩ := mem_adjacency.1 hmem
    exact hq
  · intro hq
    exact ⟨_, mem_adjacency.2 ⟨mem_packages.2 ⟨q, hasEdge_iff_mem_dependencies.2 hq⟩, rfl⟩, hq⟩

/-- Adding edges to a graph adds them to its table. -/
theorem adjacency_addEdges (g : Graph) (package : Package) (dependencies : List Package) :
    (g.addEdges package dependencies).adjacency =
      Adjacency.addEdges g.adjacency package dependencies := by
  refine (isSound_adjacency _).ext (g.isSound_adjacency.addEdges package dependencies) fun p q => ?_
  rw [g.isSound_adjacency.mem_targets_addEdges, targets_adjacency, targets_adjacency,
    ← hasEdge_iff_mem_dependencies, ← hasEdge_iff_mem_dependencies, hasEdge_addEdges]

/-- The table of the graph of files is the one that the files make. -/
theorem adjacency_build (files : List FileDependencies) :
    (build files).adjacency = Adjacency.ofFiles files := by
  induction files using List.reverseRecOn with
  | nil => rfl
  | append_singleton files file ih =>
    rw [Adjacency.ofFiles, List.foldl_concat, ← Adjacency.ofFiles, ← ih, ← adjacency_addEdges,
      build, List.foldl_concat, ← build]

/-! ## Queries -/

/-- The edges of a graph, package by package. -/
theorem edges_eq_flatMap (g : Graph) :
    g.edges = g.packages.flatMap fun p => (g.dependencies p).map (Edge.mk p) := by
  have hordered : Ordered.IsOrdered
      (g.packages.flatMap fun p => (g.dependencies p).map (Edge.mk p)) := by
    refine List.pairwise_flatMap.2 ⟨fun p _ => ?_, ?_⟩
    · exact List.pairwise_map.2 ((g.isOrdered_dependencies p).imp fun h => .inr ⟨rfl, h⟩)
    · refine (Ordered.isOrdered_ofList _).imp fun {p q} hpq e he f hf => ?_
      obtain ⟨r, -, rfl⟩ := List.mem_map.1 he
      obtain ⟨s, -, rfl⟩ := List.mem_map.1 hf
      exact .inl hpq
  refine g.ordered.ext hordered fun ⟨p, q⟩ => ?_
  simp only [List.mem_flatMap, List.mem_map, Edge.mk.injEq, ← hasEdge_iff_mem_edges]
  constructor
  · intro h
    exact ⟨p, mem_packages.2 ⟨q, h⟩, q, hasEdge_iff_mem_dependencies.1 h, rfl, rfl⟩
  · rintro ⟨r, -, s, hs, rfl, rfl⟩
    exact hasEdge_iff_mem_dependencies.2 hs

/-- The queries on a graph agree with each other and with a table of its dependencies. -/
structure AnswersFrom (g : Graph) (a : Adjacency) : Prop where
  /-- The packages are the ones listed, in strictly increasing order. -/
  packages : g.packages = a.map Prod.fst ∧ Ordered.IsOrdered g.packages
  /-- The dependencies of a package are the set beside it, in strictly increasing order. -/
  dependencies : ∀ p, g.dependencies p = a.targets p ∧ Ordered.IsOrdered (g.dependencies p)
  /-- There is an edge exactly to the dependencies of a package. -/
  hasEdge_iff_dependencies : ∀ p q, g.hasEdge p q ↔ q ∈ g.dependencies p
  /-- There is an edge exactly from the dependents of a package. -/
  hasEdge_iff_dependents : ∀ p q, g.hasEdge p q ↔ p ∈ g.dependents q
  /-- The dependents come in strictly increasing order. -/
  dependents : ∀ p, Ordered.IsOrdered (g.dependents p)
  /-- The nodes are the packages listed and their dependencies. -/
  mem_nodes : ∀ p, p ∈ g.nodes ↔ ∃ q set, (q, set) ∈ a ∧ (p = q ∨ p ∈ set)
  /-- The nodes come in strictly increasing order. -/
  nodes : Ordered.IsOrdered g.nodes
  /-- The number of packages is that of the packages listed. -/
  packageCount : g.packageCount = a.length ∧ g.packageCount = g.packages.length
  /-- The number of edges is that of the dependencies of all packages together. -/
  edgeCount : g.edgeCount =
    (g.packages.map fun p => (g.dependencies p).length).foldr (· + ·) 0

/-- The queries on a graph are answered from its table. -/
theorem answersFrom_adjacency (g : Graph) : g.AnswersFrom g.adjacency where
  packages := ⟨g.map_fst_adjacency.symm, Ordered.isOrdered_ofList _⟩
  dependencies p := ⟨(g.targets_adjacency p).symm, g.isOrdered_dependencies p⟩
  hasEdge_iff_dependencies _ _ := hasEdge_iff_mem_dependencies
  hasEdge_iff_dependents _ _ := mem_dependents.symm
  dependents := g.isOrdered_dependents
  mem_nodes p := by
    rw [Graph.mem_nodes]
    constructor
    · rintro ⟨q, hpq | hqp⟩
      · exact ⟨p, _, mem_adjacency.2 ⟨mem_packages.2 ⟨q, hpq⟩, rfl⟩, .inl rfl⟩
      · exact ⟨q, _, mem_adjacency.2 ⟨mem_packages.2 ⟨p, hqp⟩, rfl⟩,
          .inr (hasEdge_iff_mem_dependencies.1 hqp)⟩
    · rintro ⟨q, set, hmem, hp⟩
      obtain ⟨hq, rfl⟩ := mem_adjacency.1 hmem
      rcases hp with rfl | hp
      · obtain ⟨r, hr⟩ := mem_packages.1 hq
        exact ⟨r, .inl hr⟩
      · exact ⟨q, .inr (hasEdge_iff_mem_dependencies.2 hp)⟩
  nodes := Ordered.isOrdered_ofList _
  packageCount := ⟨by rw [adjacency, List.length_map]; rfl, rfl⟩
  edgeCount := by
    rw [Graph.edgeCount, edges_eq_flatMap, List.length_flatMap, List.sum_eq_foldr]
    simp only [List.length_map]

/-! ## Lists of files -/

/-- A file of the first package imports the second one, and both have a name. -/
def States (files : List FileDependencies) (p q : Package) : Prop :=
  (∃ file ∈ files, file.package = p ∧ q ∈ file.imports) ∧ p ≠ [] ∧ q ≠ []

/-- Files that state the same dependencies make the same graph. -/
theorem build_congr {files files' : List FileDependencies}
    (h : ∀ p q, States files' p q ↔ States files p q) : build files' = build files :=
  ext_hasEdge fun p q => hasEdge_build.trans ((h p q).trans hasEdge_build.symm)

/-- A history of additions, with empty names and empty lists among them, makes a table without empty
names and empty sets, and a graph that has this table and answers every query from it. The edges are
the pairs of named packages that some addition states. Any other history that states the same pairs
gives the same cycles, in either traversal and with every bound, and the same drawings. -/
theorem build_answersFrom (files : List FileDependencies) :
    (Adjacency.ofFiles files).IsSound ∧
      (build files).adjacency = Adjacency.ofFiles files ∧
      (build files).AnswersFrom (Adjacency.ofFiles files) ∧
      (∀ p q, (build files).hasEdge p q ↔ States files p q) ∧
      ∀ files', (∀ p q, States files' p q ↔ States files p q) →
        (∀ maxDepth traversal, (Detector.new maxDepth traversal).detect (build files') =
          (Detector.new maxDepth traversal).detect (build files)) ∧
        ∀ (v : View) cycles format, v.draw (build files') cycles format =
          v.draw (build files) cycles format := by
  refine ⟨Adjacency.isSound_ofFiles files, adjacency_build files, ?_, fun _ _ => hasEdge_build,
    fun files' h => ?_⟩
  · rw [← adjacency_build]
    exact answersFrom_adjacency _
  · rw [build_congr h]
    exact ⟨fun _ _ => rfl, fun _ _ _ => rfl⟩

/-- Two files that import each other's packages. -/
def pairFiles : List FileDependencies := [⟨"a", ["b"]⟩, ⟨"b", ["a"]⟩]

/-- The same dependencies in another order and in more files, with empty names and lists besides. -/
def scatteredFiles : List FileDependencies :=
  [⟨"b", [""]⟩, ⟨"b", ["a", "", "a"]⟩, ⟨"", ["a"]⟩, ⟨"a", []⟩, ⟨"c", ["", ""]⟩, ⟨"a", ["b"]⟩,
    ⟨"a", [""]⟩]

/-- The scattered files make the same table, so the same cycle is detected. -/
theorem build_answersFrom_scatteredFiles :
    Adjacency.ofFiles scatteredFiles = Adjacency.ofFiles pairFiles ∧
      (∀ p q, States scatteredFiles p q ↔ States pairFiles p q) ∧
      (Detector.new 2 .perRoot).detect (build scatteredFiles) = [(["a", "b", "a"] : Cycle)] := by
  have hstates : ∀ p q, States scatteredFiles p q ↔ States pairFiles p q := by
    intro p q
    have hempty : Text.ofString "" = [] := rfl
    simp only [States, scatteredFiles, pairFiles, List.mem_cons, List.not_mem_nil, or_false,
      exists_eq_or_imp, exists_eq_left, hempty]
    grind
  have hpair : (Detector.new 2 .perRoot).detect (build pairFiles) =
      [(["a", "b", "a"] : Cycle)] := by decide +kernel
  obtain ⟨-, -, -, -, hsame⟩ := build_answersFrom pairFiles
  exact ⟨by decide +kernel, hstates, ((hsame scatteredFiles hstates).1 2 .perRoot).trans hpair⟩

end

end Graph

end PackageCycles
