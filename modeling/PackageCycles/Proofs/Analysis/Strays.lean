import PackageCycles.Proofs.Analysis.CachedLoad
import PackageCycles.Proofs.FileTree.Strays

/-!
# Strays are not seen in the graph

A scan looks at the names of regular files and at what linked files lead to. So it finds the same
compilation units in a tree without its strays (`Scan.files_scan_prune`), unless a link that is named
like a compilation unit leads to a stray. Then nothing that is loaded depends on strays
(`Source.graph?_prune`).
-/

namespace PackageCycles

namespace Scan

section
variable {t : FileTree} {suffix root path name : Text} {node : Node} {entries : List (Text × Node)}

/-! ## Finding the same units -/

theorem files_ofLink : (ofLink t path).files =
    ((t.stat path).toOption.filter Node.isFile).elim [] fun _ => [path] := by
  unfold ofLink
  cases t.stat path with
  | error => rfl
  | ok node => cases node <;> rfl

theorem isFile_prune : (node.prune suffix).isFile = node.isFile := by
  cases node <;> rfl

theorem isDirectory_prune : (node.prune suffix).isDirectory = node.isDirectory := by
  cases node <;> rfl

/-- A link is found without strays as with them, unless it is a unit that leads to one of them. -/
theorem files_ofLink_prune (ht : t.IsWellFormed)
    (h : ∀ p ∈ (ofLink t path).files, ¬ t.LeadsToStray suffix p) :
    (ofLink (t.prune suffix) path).files = (ofLink t path).files := by
  have hnot : ¬ t.LeadsToStray suffix path := fun hstray => by
    obtain ⟨content, modified, readable, hstat⟩ := hstray.exists_file
    refine h path ?_ hstray
    rw [files_ofLink, hstat]
    exact List.mem_singleton_self path
  rw [files_ofLink, files_ofLink, FileTree.toOption_stat_prune_of_not_leadsToStray ht hnot,
    Option.filter_map]
  simp only [Function.comp_def, isFile_prune]
  cases (t.stat path).toOption.filter Node.isFile <;> rfl

/-- What is found below a directory depends on whether it can be listed. -/
theorem files_ofNode_directory {access : Access} :
    (ofNode t suffix path name (.directory entries access)).files =
      (t.readDirectory path).toOption.elim [] fun _ => (ofEntries t suffix path entries).files := by
  rw [ofNode]
  cases t.readDirectory path <;> rfl

theorem files_ofNode_of_isStray (h : node.isStray suffix name) :
    (ofNode t suffix path name node).files = [] := by
  cases node with
  | link => cases h
  | special => cases h
  | directory => cases h
  | file =>
    have hsuffix : suffix.isSuffixOf name = false := by simpa [Node.isStray, Node.isFile] using h
    rw [ofNode, hsuffix]
    rfl

mutual

theorem files_ofNode_prune (ht : t.IsWellFormed) : ∀ {path name : Text} {node : Node},
    ¬ node.isStray suffix name →
    (∀ p ∈ (ofNode t suffix path name node).files, ¬ t.LeadsToStray suffix p) →
    (ofNode (t.prune suffix) suffix path name (node.prune suffix)).files =
      (ofNode t suffix path name node).files
  | _, _, .file .., _, _ => rfl
  | path, name, .link target, _, h => by
    simp only [ofNode, Node.prune] at h ⊢
    split
    next hsuffix =>
      rw [if_pos hsuffix] at h
      exact files_ofLink_prune ht h
    next => rfl
  | _, _, .special, _, _ => rfl
  | path, _, .directory entries access, _, h => by
    rw [files_ofNode_directory] at h
    rw [Node.prune, files_ofNode_directory, files_ofNode_directory,
      FileTree.toOption_readDirectory_prune ht]
    cases hlisted : (t.readDirectory path).toOption with
    | none => rfl
    | some listed =>
      rw [hlisted] at h
      exact files_ofEntries_prune ht h

/-- Below entries the same units are found without strays, if none of them leads to a stray. -/
theorem files_ofEntries_prune (ht : t.IsWellFormed) : ∀ {path : Text} {entries : List (Text × Node)},
    (∀ p ∈ (ofEntries t suffix path entries).files, ¬ t.LeadsToStray suffix p) →
    (ofEntries (t.prune suffix) suffix path (Node.pruneEntries suffix entries)).files =
      (ofEntries t suffix path entries).files
  | _, [], _ => rfl
  | path, (name, node) :: rest, h => by
    have happend : (ofEntries t suffix path ((name, node) :: rest)).files =
        (ofNode t suffix (Path.join path name) name node).files ++
          (ofEntries t suffix path rest).files := rfl
    rw [happend] at h ⊢
    obtain ⟨hnode, hrest⟩ := List.forall_mem_append.1 h
    by_cases hstray : node.isStray suffix name
    · have hnothing : (ofNode t suffix (Path.join path name) name node).files = [] :=
        files_ofNode_of_isStray hstray
      rw [Node.pruneEntries_cons_of_isStray hstray, files_ofEntries_prune ht hrest, hnothing,
        List.nil_append]
    · rw [Node.pruneEntries_cons_of_not_isStray hstray, ← files_ofNode_prune ht hstray hnode,
        ← files_ofEntries_prune ht hrest]
      rfl

end

theorem files_ofSubdirectory : (ofSubdirectory t suffix path).files =
    (t.readDirectory path).toOption.elim [] fun entries => (ofEntries t suffix path entries).files := by
  unfold ofSubdirectory
  cases t.readDirectory path <;> rfl

theorem files_ofTopNode_prune (ht : t.IsWellFormed) (hstray : ¬ node.isStray suffix name)
    (h : ∀ p ∈ (ofTopNode t suffix path name node).files, ¬ t.LeadsToStray suffix p) :
    (ofTopNode (t.prune suffix) suffix path name (node.prune suffix)).files =
      (ofTopNode t suffix path name node).files := by
  unfold ofTopNode at h ⊢
  rw [isDirectory_prune]
  split
  next hdirectory =>
    rw [if_pos hdirectory, files_ofSubdirectory] at h
    rw [files_ofSubdirectory, files_ofSubdirectory, FileTree.toOption_readDirectory_prune ht]
    cases hentries : (t.readDirectory path).toOption with
    | none => rfl
    | some entries =>
      rw [hentries] at h
      exact files_ofEntries_prune ht h
  next hdirectory =>
    rw [if_neg hdirectory] at h
    exact files_ofNode_prune ht hstray h

theorem files_ofTopEntries_prune (ht : t.IsWellFormed)
    (h : ∀ p ∈ (ofTopEntries t suffix root entries).files, ¬ t.LeadsToStray suffix p) :
    (ofTopEntries (t.prune suffix) suffix root (Node.pruneEntries suffix entries)).files =
      (ofTopEntries t suffix root entries).files := by
  induction entries with
  | nil => rfl
  | cons entry rest ih =>
    obtain ⟨name, node⟩ := entry
    have happend : (ofTopEntries t suffix root ((name, node) :: rest)).files =
        (ofTopNode t suffix (Path.join root name) name node).files ++
          (ofTopEntries t suffix root rest).files := rfl
    rw [happend] at h ⊢
    obtain ⟨hnode, hrest⟩ := List.forall_mem_append.1 h
    by_cases hstray : node.isStray suffix name
    · have hnothing : (ofTopNode t suffix (Path.join root name) name node).files = [] := by
        have hdirectory : node.isDirectory = false := by
          cases node with
          | file => rfl
          | link => rfl
          | special => rfl
          | directory => cases hstray
        rw [ofTopNode, hdirectory]
        exact files_ofNode_of_isStray hstray
      rw [Node.pruneEntries_cons_of_isStray hstray, ih hrest, hnothing, List.nil_append]
    · rw [Node.pruneEntries_cons_of_not_isStray hstray, ← files_ofTopNode_prune ht hstray hnode,
        ← ih hrest]
      rfl

/-- The files that a scan finds depend on what the root leads to. -/
theorem toOption_scan : (scan t suffix root).toOption.map (·.files) =
    ((t.stat root).toOption.filter Node.isDirectory).bind fun _ =>
      (t.statLink root).toOption.bind fun node =>
        if node.isDirectory then
          (t.readDirectory root).toOption.map fun entries =>
            (ofTopEntries t (suffixInEffect suffix) root entries).files
        else some [] := by
  unfold scan
  cases t.stat root with
  | error cause =>
    simp only
    split <;> rfl
  | ok node =>
    cases node with
    | file => rfl
    | link => rfl
    | special => rfl
    | directory =>
      cases t.statLink root with
      | error => rfl
      | ok node =>
        cases node with
        | file => rfl
        | link => rfl
        | special => rfl
        | directory => cases t.readDirectory root <;> rfl

/-- A path leads to a directory without strays exactly if it leads to one with them. -/
theorem filter_stat_prune (ht : t.IsWellFormed) :
    ((t.prune suffix).stat path).toOption.filter Node.isDirectory =
      ((t.stat path).toOption.filter Node.isDirectory).map (Node.prune suffix) := by
  by_cases hstray : t.LeadsToStray suffix path
  · obtain ⟨content, modified, readable, hstat⟩ := hstray.exists_file
    rw [FileTree.toOption_stat_prune_of_leadsToStray ht hstray, hstat]
    rfl
  · rw [FileTree.toOption_stat_prune_of_not_leadsToStray ht hstray, Option.filter_map]
    simp only [Function.comp_def, isDirectory_prune]

/-- What leads to a directory once links are followed is no stray if they are not followed. -/
theorem toOption_statLink_prune (ht : t.IsWellFormed) (hnode : t.stat path = .ok node)
    (hdirectory : node.isDirectory) : ((t.prune suffix).statLink path).toOption =
      (t.statLink path).toOption.map (Node.prune suffix) := by
  rw [FileTree.toOption_statLink, FileTree.toOption_statLink, FileTree.toOption_resolve_prune ht]
  cases hplace : t.resolve false path with
  | error => rfl
  | ok place =>
    have hnot : ¬ FileTree.isStrayAt suffix place := by
      intro hstray
      have htrue : t.resolve true path = .ok place := by
        refine FileTree.resolve_true_of_resolve_false ?_ hplace
        rintro name target above rfl
        cases hstray
      have hleads : t.LeadsToStray suffix path := ⟨place, htrue, hstray⟩
      obtain ⟨content, modified, readable, hstat⟩ := hleads.exists_file
      rw [hstat] at hnode
      cases hnode
      cases hdirectory
    rw [FileTree.pruneResult_ok hnot]
    exact congrArg some FileTree.nodeAt_prunePlace

/-- A scan finds the same files without strays, if none of them leads to a stray. -/
theorem files_scan_prune (ht : t.IsWellFormed) (hsuffix : suffix ≠ [])
    (h : ∀ p ∈ t.units suffix root, ¬ t.LeadsToStray suffix p) :
    (scan (t.prune suffix) suffix root).toOption.map (·.files) =
      (scan t suffix root).toOption.map (·.files) := by
  have hunits : t.units suffix root = ((scan t suffix root).toOption.map (·.files)).getD [] := by
    unfold FileTree.units
    cases scan t suffix root <;> rfl
  rw [hunits, toOption_scan, suffixInEffect_of_ne_nil hsuffix] at h
  rw [toOption_scan, toOption_scan, suffixInEffect_of_ne_nil hsuffix, filter_stat_prune ht,
    FileTree.toOption_readDirectory_prune ht]
  cases hstat : t.stat root with
  | error => simp only [Except.toOption, Option.filter_none, Option.map_none, Option.bind_none]
  | ok node =>
    by_cases hdirectory : node.isDirectory
    · rw [hstat] at h
      rw [toOption_statLink_prune ht hstat hdirectory]
      simp only [Except.toOption, Option.filter_some_pos hdirectory, Option.map_some,
        Option.bind_some] at h ⊢
      cases hlink : t.statLink root with
      | error => rfl
      | ok link =>
        rw [hlink] at h
        simp only [Option.map_some, Option.bind_some, isDirectory_prune] at h ⊢
        split
        next hlinkDirectory =>
          rw [if_pos hlinkDirectory] at h
          cases hentries : t.readDirectory root with
          | error => rfl
          | ok entries =>
            rw [hentries] at h
            exact congrArg some (files_ofTopEntries_prune ht h)
        next => rfl
    · simp only [Except.toOption, Option.filter_some_neg (eq_false_of_ne_true hdirectory),
        Option.map_none, Option.bind_none]

end

end Scan

namespace Import

/-- What is read off a unit that leads to no stray does not depend on strays. -/
theorem Extractor.extract_prune_agrees (x : Extractor) {t : FileTree} {suffix path : Text}
    (ht : t.IsWellFormed) (h : ¬ t.LeadsToStray suffix path) :
    (x.extract (t.prune suffix) (none : Option Cache) path).1.Agrees
      (x.extract t (none : Option Cache) path).1 := by
  refine x.extract_agrees ?_
  have hcontent := FileTree.toOption_readContent_prune ht h
  exact (toOption_parseFile ⟨t.prune suffix, path⟩).trans
    ((congrArg (Option.map parse) hcontent).trans (toOption_parseFile ⟨t, path⟩).symm)

end Import

namespace Source
open Import

/-- The graph that is loaded without a cache, if it can be loaded. -/
def graph? (s : Source) (t : FileTree) (timing : Timing) (root : Text) : Option Graph :=
  (s.load t none timing root).result.toOption.map (·.graph)

section
variable {t : FileTree} {suffix root : Text} {excluded : Package → Bool}
  {timing : Timing}

/-- The graph is made from the units that a scan finds. -/
theorem graph?_ofFiles : (ofFiles suffix excluded).graph? t timing root =
    ((scan t suffix root).toOption.map (·.files)).map fun files =>
      Graph.build ((files.map fun path =>
        ((⟨root, excluded⟩ : Extractor).extract t (none : Option Cache) path).1).filterMap
          (·.dependencies?)) := by
  unfold graph?
  simp only [ofFiles]
  cases scan t suffix root with
  | error => rfl
  | ok found =>
    simp only [Extractor.map_extractAll]
    rfl

/-- The graph loaded does not depend on strays, if no unit leads to one. -/
theorem graph?_prune (ht : t.IsWellFormed) (hsuffix : suffix ≠ []) {timing' : Timing}
    (h : ∀ p ∈ t.units suffix root, ¬ t.LeadsToStray suffix p) :
    (ofFiles suffix excluded).graph? (t.prune suffix) timing' root =
      (ofFiles suffix excluded).graph? t timing root := by
  rw [graph?_ofFiles, graph?_ofFiles, Scan.files_scan_prune ht hsuffix h]
  cases hscan : scan t suffix root with
  | error => simp only [Except.toOption, Option.map_none]
  | ok found =>
    have hunits : t.units suffix root = found.files := by simp only [FileTree.units, hscan]
    rw [hunits] at h
    have hfile := fun path hpath =>
      (⟨root, excluded⟩ : Extractor).extract_prune_agrees ht (h path hpath)
    have hfiles := List.forall₂_map_left_iff.2
      (List.forall₂_map_right_iff.2 (List.forall₂_same.2 hfile))
    simp only [Except.toOption, Option.map_some]
    rw [filterMap_dependencies?_congr hfiles]

end

end Source

end PackageCycles
