import PackageCycles.Proofs.Analysis.Strays
import PackageCycles.Watch.Change

/-!
# Steps that change the graph are reported as relevant

A step brings an entry into a directory, takes one away or renames one, and is reported by the path
of the entry. Whether a change is relevant is judged by its path alone (`FileTree.Step.isRelevant_iff`):
a name with a dot and another suffix is not. If such a step moves a regular file, only strays differ
between the trees before and after it (`FileTree.Step.prune_eq`), so the graph stays the same unless
a unit is a link that leads to a stray (`FileTree.Step.exists_isRelevant`). The name of a directory may
have a dot too, and then the graph can change without a relevant change
(`FileTree.Step.not_isRelevant_dotted`).
-/

namespace PackageCycles

namespace Path

/-- The path of an entry of a directory, as a change names it. -/
def ofEntry (directory name : Text) : Text := directory ++ separator :: name

section
variable {directory name : Text}

theorem extension_eq_nil : extension name = [] ↔ Text.byte '.' ∉ fileName name := by
  unfold extension
  by_cases h : Text.byte '.' ∈ fileName name <;> simp [h]

theorem suffix_ofEntry {suffix : Text} (h : suffix <:+ name) : suffix <:+ ofEntry directory name :=
  h.trans ((List.suffix_cons _ _).trans (List.suffix_append _ _))

end

end Path

namespace FileTree

/-! ## Steps -/

/-- The tree without an entry of the directory at a place. -/
def eraseAt (t : FileTree) (place : Place) (name : Text) : FileTree :=
  { t with root := t.root.erase (names place ++ [name]) }

/-- What a name stands for in a directory that a path leads to. -/
structure HasEntry (t : FileTree) (directory : Text) (place : Place) (name : Text)
    (entry : Option Node) : Prop where
  /-- The path leads to the place. -/
  resolve : t.resolve true directory = .ok place
  /-- There is a directory, and that is what the name stands for in it. -/
  entry : ∃ entries access, t.nodeAt place = .directory entries access ∧
    entries.lookup name = entry
  /-- It is a name. -/
  isName : Path.IsName name

/-- A step that brings or takes away a node or gives it another name, the changes that are reported
and the tree afterwards. -/
inductive Step (t : FileTree) (node : Node) : List Change → FileTree → Prop
  /-- The node becomes an entry where there was none. -/
  | create {directory name : Text} {place : Place} (h : t.HasEntry directory place name none) :
    Step t node [⟨Path.ofEntry directory name, [.create]⟩] (t.putAt place [name] node)
  /-- The node is no entry any more. -/
  | remove {directory name : Text} {place : Place} (h : t.HasEntry directory place name (some node)) :
    Step t node [⟨Path.ofEntry directory name, [.remove]⟩] (t.eraseAt place name)
  /-- The node becomes an entry elsewhere, though not below itself. A file may take the place of
  another one. -/
  | rename {directory name directory' name' : Text} {place place' : Place} {old : Option Node}
    (h : t.HasEntry directory place name (some node)) (h' : t.HasEntry directory' place' name' old)
    (hold : ∀ n ∈ old, n.isFile ∧ node.isFile) (houtside : ¬ names place ++ [name] <+: names place') :
    Step t node
      [⟨Path.ofEntry directory name, [.rename]⟩, ⟨Path.ofEntry directory' name', [.create]⟩]
      ((t.eraseAt place name).putAt place' [name'] node)

section
variable {t t' : FileTree} {node : Node} {changes : List Change} {suffix root directory name : Text}
  {place : Place} {entry : Option Node} {excluded : Package → Bool} {timing timing' : Timing}

theorem HasEntry.isName_names (ht : t.root.isWellFormed) (h : t.HasEntry directory place name entry) :
    ∀ n ∈ names place ++ [name], Path.IsName n :=
  List.forall_mem_append.2 ⟨Node.isName_of_at? ht (at?_names_of_resolve h.resolve),
    List.forall_mem_singleton.2 h.isName⟩

variable (suffix) in
/-- In the tree without strays, the directory is there, and has no entry with the name if there was
at most a stray. -/
theorem HasEntry.exists_pruned (ht : t.root.isWellFormed)
    (h : t.HasEntry directory place name entry) (hentry : ∀ n ∈ entry, n.isStray suffix name) :
    ∃ inner access, (t.root.prune suffix).at? (names place) = some (.directory inner access) ∧
      inner.lookup name = none := by
  obtain ⟨entries, access, hnode, rfl⟩ := h.entry
  have hat : t.root.at? (names place) = some (.directory entries access) :=
    hnode ▸ at?_names_of_resolve h.resolve
  have hwell : (t.nodeAt place).isWellFormed :=
    nodeAt_of_forall (P := fun node => node.isWellFormed) ht
      (forall_resolve Node.hereditary_isWellFormed ht h.resolve)
  rw [hnode] at hwell
  have hentries : Node.areWellFormed entries := hwell
  refine ⟨Node.pruneEntries suffix entries, access,
    (Node.at?_prune_eq_directory ht).2 ⟨entries, hat, rfl⟩, ?_⟩
  exact Node.lookup_pruneEntries_of_isStray hentries hentry

/-- A step is reported. -/
theorem Step.exists_change (h : Step t node changes t') : ∃ c, c ∈ changes := by
  cases h with
  | create => exact ⟨_, List.mem_cons_self⟩
  | remove => exact ⟨_, List.mem_cons_self⟩
  | rename => exact ⟨_, List.mem_cons_self⟩

/-! ## Relevant changes -/

/-- A change of a step is relevant exactly if its path has the suffix or its name has no dot. -/
theorem Step.isRelevant_iff (h : Step t node changes t') {c : Change} (hc : c ∈ changes) :
    c.isRelevant suffix ↔ suffix <:+ c.path ∨ Text.byte '.' ∉ Path.fileName c.path := by
  have hkinds : c.isOfAttributes = false ∧ c.isOfExistence := by
    cases h with
    | create =>
      cases List.mem_singleton.1 hc
      exact ⟨rfl, rfl⟩
    | remove =>
      cases List.mem_singleton.1 hc
      exact ⟨rfl, rfl⟩
    | rename =>
      rcases List.mem_cons.1 hc with rfl | hc
      · exact ⟨rfl, rfl⟩
      · cases List.mem_singleton.1 hc
        exact ⟨rfl, rfl⟩
  obtain ⟨hattributes, hexistence⟩ := hkinds
  simp [Change.isRelevant, hattributes, hexistence, Path.extension_eq_nil]

/-- A regular file whose path, as a change names it, has another suffix is a stray. -/
theorem isStray_of_not_suffix (hfile : node.isFile) (h : ¬ suffix <:+ Path.ofEntry directory name) :
    node.isStray suffix name := by
  have hname : ¬ suffix.isSuffixOf name :=
    fun hsuffix => h (Path.suffix_ofEntry (List.isSuffixOf_iff_suffix.1 hsuffix))
  rw [Node.isStray, hfile, eq_false_of_ne_true hname]
  rfl

/-- A step with a regular file whose names have another suffix is not seen in the tree without
strays. -/
theorem Step.prune_eq (ht : t.root.isWellFormed) (h : Step t node changes t') (hfile : node.isFile)
    (hsuffix : ∀ c ∈ changes, ¬ suffix <:+ c.path) :
    t'.prune suffix = t.prune suffix ∧ t'.root.isWellFormed := by
  have hwell : node.isWellFormed := by
    cases node with
    | file => rfl
    | link => cases hfile
    | special => cases hfile
    | directory => cases hfile
  cases h with
  | create h =>
    have hstray := isStray_of_not_suffix hfile (hsuffix _ (List.mem_singleton_self _))
    obtain ⟨inner, access, hparent, hfree⟩ := h.exists_pruned suffix ht (fun _ hn => nomatch hn)
    refine ⟨?_, Node.isWellFormed_put hwell (h.isName_names ht) ht⟩
    simp only [prune, putAt, Node.prune_put ht hstray hparent hfree]
  | remove h =>
    have hstray := isStray_of_not_suffix hfile (hsuffix _ (List.mem_singleton_self _))
    obtain ⟨inner, access, hparent, hfree⟩ :=
      h.exists_pruned suffix ht (fun _ hn => Option.some.inj hn ▸ hstray)
    refine ⟨?_, Node.isWellFormed_erase ht⟩
    simp only [prune, eraseAt, Node.prune_erase ht hparent hfree]
  | @rename _ name _ _ place _ _ h h' hold _ =>
    obtain ⟨hsuffix, hsuffix'⟩ := List.forall_mem_cons.1 hsuffix
    have hstray := isStray_of_not_suffix hfile hsuffix
    have hsuffix' := hsuffix' _ (List.mem_singleton_self _)
    have hstray' := isStray_of_not_suffix hfile hsuffix'
    obtain ⟨inner, access, hparent, hfree⟩ :=
      h.exists_pruned suffix ht (fun _ hn => Option.some.inj hn ▸ hstray)
    obtain ⟨inner', access', hparent', hfree'⟩ :=
      h'.exists_pruned suffix ht (fun n hn => isStray_of_not_suffix (hold n hn).1 hsuffix')
    have herased : (t.root.erase (names place ++ [name])).isWellFormed :=
      Node.isWellFormed_erase ht
    have herase := Node.prune_erase ht hparent hfree
    rw [← herase] at hparent'
    refine ⟨?_, Node.isWellFormed_put hwell (h'.isName_names ht) herased⟩
    simp only [prune, putAt, eraseAt, Node.prune_put herased hstray' hparent' hfree', herase]

/-- A step that moves a regular file or a directory and changes the graph is reported as relevant, in
so far as a directory that is moved is named once without a dot or with the suffix, and no unit
leads, before or after a file is moved, to a file that is named otherwise. -/
theorem Step.exists_isRelevant (ht : t.IsWellFormed) (h : Step t node changes t')
    (hnode : node.isFile ∧ (∀ p ∈ t.units suffix root, ¬ t.LeadsToStray suffix p) ∧
        (∀ p ∈ t'.units suffix root, ¬ t'.LeadsToStray suffix p) ∨
      node.isDirectory ∧
        ∃ c ∈ changes, suffix <:+ c.path ∨ Text.byte '.' ∉ Path.fileName c.path)
    (hgraph : (Source.ofFiles suffix excluded).graph? t timing root ≠
      (Source.ofFiles suffix excluded).graph? t' timing' root) :
    ∃ c ∈ changes, c.isRelevant suffix := by
  rcases hnode with ⟨hfile, hunits, hunits'⟩ | ⟨-, c, hc, hpath⟩
  · by_contra hnone
    have hsuffix : ∀ c ∈ changes, ¬ suffix <:+ c.path :=
      fun c hc hc' => hnone ⟨c, hc, (h.isRelevant_iff hc).2 (.inl hc')⟩
    -- Any path has the empty suffix, so the suffix in effect is the one given.
    have hne : suffix ≠ [] := by
      rintro rfl
      obtain ⟨c, hc⟩ := h.exists_change
      exact hsuffix c hc (List.nil_suffix)
    obtain ⟨hprune, hroot⟩ := h.prune_eq ht.root hfile hsuffix
    have ht' : t'.IsWellFormed := ht.of_prune_eq hroot hprune
    refine hgraph ?_
    calc (Source.ofFiles suffix excluded).graph? t timing root
        = (Source.ofFiles suffix excluded).graph? (t.prune suffix) timing root :=
          (Source.graph?_prune ht hne hunits).symm
      _ = (Source.ofFiles suffix excluded).graph? (t'.prune suffix) timing root := by rw [hprune]
      _ = (Source.ofFiles suffix excluded).graph? t' timing' root :=
          Source.graph?_prune ht' hne hunits'
  · exact ⟨c, hc, (h.isRelevant_iff hc).2 hpath⟩

end

/-- A source directory with one package, in which there is a link that leads nowhere. -/
def danglingTree : FileTree where
  root := .directory [("src", .directory
    [("a", .directory [("Link.java", .link "B.txt")] .full)] .full)] .full
  workingDirectory := []

/-- The edges of the graph of the source directory. -/
def sourceEdges (t : FileTree) : Option (List Edge) :=
  ((Source.ofFiles ".java" fun _ => false).graph? t .none "src").map (·.edges)

theorem sourceEdges_ne {t t' : FileTree} (h : t.sourceEdges ≠ t'.sourceEdges) :
    (Source.ofFiles ".java" fun _ => false).graph? t .none "src" ≠
      (Source.ofFiles ".java" fun _ => false).graph? t' .none "src" :=
  fun heq => h (congrArg (Option.map Graph.edges) heq)

/-- A node becomes an entry of the directory with the given names. -/
theorem step_create {t : FileTree} {node : Node} {directory name path : Text} {names' : List Text}
    (hentry : ∃ place, t.HasEntry directory place name none ∧ names place = names')
    (hpath : Path.ofEntry directory name = path) :
    t.Step node [⟨path, [.create]⟩] ⟨node.put (names' ++ [name]) t.root, t.workingDirectory⟩ := by
  obtain ⟨place, hentry, rfl⟩ := hentry
  exact hpath ▸ .create hentry

/-- A unit that is brought into the package changes the graph, and is reported as relevant. -/
theorem Step.exists_isRelevant_created : danglingTree.IsWellFormed ∧
    ∃ t', danglingTree.Step (.file "import b.B;" 0 true) [⟨"src/a/B.java", [.create]⟩] t' ∧
      danglingTree.sourceEdges = some [] ∧ t'.sourceEdges = some [⟨"a", "b"⟩] ∧
      ∃ c ∈ [(⟨"src/a/B.java", [.create]⟩ : Change)], c.isRelevant ".java" := by
  have hwell : danglingTree.IsWellFormed := ⟨by decide +kernel, _, _, rfl⟩
  have hentry : ∃ place, danglingTree.HasEntry "src/a" place "B.java" none ∧
      names place = [("src" : Text), ("a" : Text)] :=
    ⟨_, ⟨rfl, ⟨_, _, rfl, rfl⟩, by decide⟩, rfl⟩
  have hstep : danglingTree.Step (.file "import b.B;" 0 true) [⟨"src/a/B.java", [.create]⟩] _ :=
    step_create hentry (by decide)
  refine ⟨hwell, _, hstep, by decide +kernel, by decide +kernel, ?_⟩
  refine hstep.exists_isRelevant hwell (.inl ⟨rfl, ?_, ?_⟩) (sourceEdges_ne ?_)
  · decide +kernel
  · decide +kernel
  · decide +kernel

/-- A directory whose name has a dot is brought into the source directory with a unit in it, or a
file is brought into the package that a link named like a unit leads to. Both change the graph, and
neither is reported as relevant. -/
theorem Step.not_isRelevant_dotted : danglingTree.IsWellFormed ∧ danglingTree.sourceEdges = some [] ∧
    (∃ t', danglingTree.Step (.directory [("B.java", .file "import a.A;" 0 true)] .full)
      [⟨"src/v1.2", [.create]⟩] t' ∧ t'.sourceEdges = some [⟨"v1.2", "a"⟩]) ∧
    ¬ (⟨"src/v1.2", [.create]⟩ : Change).isRelevant ".java" ∧
    (∃ t', danglingTree.Step (.file "import b.B;" 0 true) [⟨"src/a/B.txt", [.create]⟩] t' ∧
      t'.sourceEdges = some [⟨"a", "b"⟩]) ∧
    ¬ (⟨"src/a/B.txt", [.create]⟩ : Change).isRelevant ".java" := by
  have hsource : ∃ place, danglingTree.HasEntry "src" place "v1.2" none ∧
      names place = [("src" : Text)] := ⟨_, ⟨rfl, ⟨_, _, rfl, rfl⟩, by decide⟩, rfl⟩
  have hpackage : ∃ place, danglingTree.HasEntry "src/a" place "B.txt" none ∧
      names place = [("src" : Text), ("a" : Text)] :=
    ⟨_, ⟨rfl, ⟨_, _, rfl, rfl⟩, by decide⟩, rfl⟩
  exact ⟨⟨by decide +kernel, _, _, rfl⟩, by decide +kernel,
    ⟨_, step_create hsource (by decide), by decide +kernel⟩, by decide,
    ⟨_, step_create hpackage (by decide), by decide +kernel⟩, by decide⟩

end FileTree

end PackageCycles
