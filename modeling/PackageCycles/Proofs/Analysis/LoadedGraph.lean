import PackageCycles.Analysis.Source
import PackageCycles.Exclusion
import PackageCycles.Proofs.Import.Extraction

/-!
# The loaded graph is the import relation

Without a cache, extracting one file does not depend on the others, so the files of a scan
contribute to the graph one by one (`Extractor.map_extractAll`). A file contributes an edge exactly
if it has a package, can be read and imports the other end, and neither end is excluded
(`Contributes`). The graph loaded has exactly the edges that some file of the scan contributes
(`Source.exists_load`); what exclusion and unreadable files do to the graph follows from that alone
(`Source.load_eq_imports`). Any predicate may say which packages are left out; that of the patterns
in the settings is one.
-/

namespace PackageCycles

namespace Import

section
variable {x : Extractor} {t : FileTree} {path : Text} {p q : Package}

/-! ## Files one by one -/

/-- Without a cache there is none afterwards. -/
theorem Extractor.extract_cache (x : Extractor) (t : FileTree) (path : Text) :
    (x.extract t (none : Option Cache) path).2.1 = none := by
  rcases x.extract_cache_eq_or t (none : Option Cache) path with h | h
  · exact h
  · exact h

/-- Without a cache, files are extracted independently of each other. -/
theorem Extractor.map_extractAll (x : Extractor) (t : FileTree) (paths : List Text) :
    (x.extractAll t (none : Option Cache) paths).1.map (·.1) =
      paths.map fun path => (x.extract t (none : Option Cache) path).1 := by
  induction paths with
  | nil => rfl
  | cons path rest ih =>
    have hcache := x.extract_cache t path
    rcases hextract : x.extract t (none : Option Cache) path with ⟨file, cache, lookups⟩
    rw [hextract] at hcache
    subst hcache
    simp only [Extractor.extractAll, hextract, List.map_cons, ih]

/-! ## Contributions -/

/-- The file at `path` adds the edge from `p` to `q` to the graph. -/
structure Contributes (x : Extractor) (t : FileTree) (path : Text) (p q : Package) : Prop where
  /-- The file belongs to the package. -/
  owner : owner? x.root path = some p
  /-- The package of the file is not excluded. -/
  source_kept : x.excluded p = false
  /-- The file can be read and imports the other package. -/
  imports : Imports t path q
  /-- The package imported is not excluded. -/
  target_kept : x.excluded q = false

/-- A contribution has names at both ends, so the graph does not leave it out. -/
theorem Contributes.ne_nil (h : Contributes x t path p q) : p ≠ [] ∧ q ≠ [] := by
  obtain ⟨content, -, line, -, hline⟩ := h.imports
  exact ⟨ne_nil_of_owner?_eq_some h.owner, ne_nil_of_parseLine?_eq_some hline⟩

/-- What an extracted file passes on to the graph are the edges that it contributes. -/
theorem Extractor.exists_dependencies?_iff :
    (∃ file, (x.extract t (none : Option Cache) path).1.dependencies? = some file ∧
      file.package = p ∧ q ∈ file.imports) ↔ Contributes x t path p q := by
  unfold Extractor.extract
  cases howner : owner? x.root path with
  | none =>
    refine ⟨fun ⟨_, hfile, _⟩ => (nomatch hfile), fun h => ?_⟩
    rw [h.owner] at howner
    cases howner
  | some package =>
    dsimp only
    cases hexcluded : x.excluded package with
    | true =>
      refine ⟨fun ⟨_, hfile, _⟩ => (nomatch hfile), fun h => ?_⟩
      rw [h.owner] at howner
      cases howner
      exact nomatch hexcluded.symm.trans h.source_kept
    | false =>
      cases hcontent : t.readContent path with
      | error e =>
        have hread : read t (none : Option Cache) path = ⟨.error e, none, []⟩ := by
          simp only [read, parseFile, hcontent, Except.map]
        rw [hread]
        exact ⟨fun ⟨_, hfile, _⟩ => (nomatch hfile),
          fun h => absurd h.imports (not_imports_of_error hcontent q)⟩
      | ok content =>
        have hread : read t (none : Option Cache) path = ⟨.ok (parse content), none, []⟩ := by
          simp only [read, parseFile, hcontent, Except.map]
        rw [hread]
        constructor
        · rintro ⟨file, hfile, rfl, hq⟩
          cases hfile
          obtain ⟨hq, hkept⟩ := List.mem_filter.1 hq
          exact ⟨howner, hexcluded, ⟨content, hcontent, mem_parse.1 hq⟩, by simpa using hkept⟩
        · rintro ⟨howner', -, ⟨content', hcontent', hq⟩, hkept⟩
          rw [howner] at howner'
          rw [hcontent] at hcontent'
          cases howner'
          cases hcontent'
          exact ⟨_, rfl, rfl, List.mem_filter.2 ⟨mem_parse.2 hq, by simpa using hkept⟩⟩

/-- Exclusion takes away the contributions with an excluded end and no others. -/
theorem exists_contributes_iff_nothing {root : Text} {excluded : Package → Bool}
    {paths : List Text} :
    (∃ path ∈ paths, Contributes ⟨root, excluded⟩ t path p q) ↔
      (∃ path ∈ paths, Contributes ⟨root, fun _ => false⟩ t path p q) ∧
        excluded p = false ∧ excluded q = false := by
  constructor
  · rintro ⟨path, hpath, howner, hp, himports, hq⟩
    exact ⟨⟨path, hpath, howner, rfl, himports, rfl⟩, hp, hq⟩
  · rintro ⟨⟨path, hpath, howner, -, himports, -⟩, hp, hq⟩
    exact ⟨path, hpath, howner, hp, himports, hq⟩

/-- A contribution depends on no other file than its own. -/
theorem Contributes.of_readContent_eq {t' : FileTree} (h : Contributes x t path p q)
    (heq : t'.readContent path = t.readContent path) : Contributes x t' path p q := by
  obtain ⟨content, hcontent, hline⟩ := h.imports
  exact ⟨h.owner, h.source_kept, ⟨content, heq.trans hcontent, hline⟩, h.target_kept⟩

/-- If one file can no longer be read and the others stay the same, the contributions left are those
of the others. -/
theorem exists_contributes_iff_of_unreadable {t' : FileTree} {paths : List Text} {file : Text}
    {e : FileError} (hfile : t'.readContent file = .error e)
    (hothers : ∀ path ∈ paths, path ≠ file → t'.readContent path = t.readContent path) :
    (∃ path ∈ paths, Contributes x t' path p q) ↔
      ∃ path ∈ paths, path ≠ file ∧ Contributes x t path p q := by
  constructor
  · rintro ⟨path, hpath, h⟩
    have hne : path ≠ file := by
      rintro rfl
      exact not_imports_of_error hfile q h.imports
    exact ⟨path, hpath, hne, h.of_readContent_eq (hothers path hpath hne).symm⟩
  · rintro ⟨path, hpath, hne, h⟩
    exact ⟨path, hpath, h.of_readContent_eq (hothers path hpath hne)⟩

end

end Import

namespace Source
open Import

section
variable {t : FileTree} {suffix root : Text} {found : Scan}

/-! ## Loading -/

/-- Once the scan succeeds a graph is loaded, and its edges are those that the files found
contribute. -/
theorem exists_load (excluded : Package → Bool) (timing : Timing)
    (hscan : scan t suffix root = .ok found) :
    ∃ loaded, ((ofFiles suffix excluded).load t none timing root).result = .ok loaded ∧
      ∀ p q, loaded.graph.hasEdge p q ↔
        ∃ path ∈ found.files, Contributes ⟨root, excluded⟩ t path p q := by
  simp only [ofFiles, hscan, Extractor.map_extractAll]
  refine ⟨_, rfl, fun p q => ?_⟩
  rw [Graph.hasEdge_build]
  constructor
  · rintro ⟨⟨file, hfile, hp, hq⟩, -⟩
    obtain ⟨extracted, hextracted, hfile⟩ := List.mem_filterMap.1 hfile
    obtain ⟨path, hpath, rfl⟩ := List.mem_map.1 hextracted
    exact ⟨path, hpath, Extractor.exists_dependencies?_iff.1 ⟨file, hfile, hp, hq⟩⟩
  · rintro ⟨path, hpath, h⟩
    obtain ⟨file, hfile, hp, hq⟩ := Extractor.exists_dependencies?_iff.2 h
    exact ⟨⟨file, List.mem_filterMap.2 ⟨_, List.mem_map_of_mem hpath, hfile⟩, hp, hq⟩, h.ne_nil⟩

/-- The graph loaded is the import relation of the files found, less the excluded packages. An
excluded package is at no end of an edge, exclusion only restricts the graph to the other packages,
and a file that can no longer be read takes away no other contribution than its own. -/
theorem load_eq_imports (excluded : Package → Bool) (timing : Timing)
    (hscan : scan t suffix root = .ok found) :
    ∃ loaded, ((ofFiles suffix excluded).load t none timing root).result = .ok loaded ∧
      (∀ p q, loaded.graph.hasEdge p q ↔
        ∃ path ∈ found.files, Contributes ⟨root, excluded⟩ t path p q) ∧
      (∀ p ∈ loaded.graph.nodes, excluded p = false) ∧
      (∃ whole, ((ofFiles suffix fun _ => false).load t none timing root).result = .ok whole ∧
        loaded.graph = whole.graph.filter fun e => !excluded e.source && !excluded e.target) ∧
      ∀ (t' : FileTree) (found' : Scan) (file : Text) (e : FileError),
        scan t' suffix root = .ok found' → found'.files = found.files →
        t'.readContent file = .error e →
        (∀ path ∈ found.files, path ≠ file → t'.readContent path = t.readContent path) →
        ∃ loaded', ((ofFiles suffix excluded).load t' none timing root).result = .ok loaded' ∧
          ∀ p q, loaded'.graph.hasEdge p q ↔
            ∃ path ∈ found.files, path ≠ file ∧ Contributes ⟨root, excluded⟩ t path p q := by
  obtain ⟨loaded, hload, hedges⟩ := exists_load excluded timing hscan
  refine ⟨loaded, hload, hedges, fun p hp => ?_, ?_, ?_⟩
  · obtain ⟨q, hpq | hqp⟩ := Graph.mem_nodes.1 hp
    · obtain ⟨path, -, h⟩ := (hedges p q).1 hpq
      exact h.source_kept
    · obtain ⟨path, -, h⟩ := (hedges q p).1 hqp
      exact h.target_kept
  · obtain ⟨whole, hwhole, hwholeEdges⟩ := exists_load (fun _ => false) timing hscan
    refine ⟨whole, hwhole, Graph.ext_hasEdge fun p q => ?_⟩
    rw [hedges, Graph.hasEdge_filter, hwholeEdges, exists_contributes_iff_nothing,
      Bool.and_eq_true, Bool.not_eq_true', Bool.not_eq_true']
  · intro t' found' file e hscan' hfiles hfile hothers
    obtain ⟨loaded', hload', hedges'⟩ := exists_load excluded timing hscan'
    refine ⟨loaded', hload', fun p q => ?_⟩
    rw [hedges', hfiles]
    exact exists_contributes_iff_of_unreadable hfile hothers

/-- A source directory with two packages that import each other; the first imports a third one
besides, and the file of the second can be read if `readable` says so. -/
def pairTree (readable : Bool) : FileTree where
  root := .directory [("src", .directory
    [("a", .directory [("A.java", .file "import b.B;\nimport c.C;\n" 0 true)] .full),
      ("b", .directory [("B.java", .file "import a.A;\n" 0 readable)] .full)] .full)] .full
  workingDirectory := []

/-- The exclusion of the package `c`. -/
def withoutC : Exclusion := (Exclusion.compile ["c"]).toOption.getD .nothing

/-- The graph of the two packages has no edge to the excluded one, and it keeps the edge of the
first package when the file of the second cannot be read. -/
theorem load_eq_imports_pairTree :
    scan (pairTree true) ".java" "src" = .ok ⟨["src/a/A.java", "src/b/B.java"], []⟩ ∧
      (∃ loaded,
        ((ofFiles ".java" withoutC.excludes).load (pairTree true) none .none "src").result =
          .ok loaded ∧ loaded.graph.hasEdge "b" "a" ∧ ("c" : Package) ∉ loaded.graph.nodes) ∧
      ∃ loaded,
        ((ofFiles ".java" withoutC.excludes).load (pairTree false) none .none "src").result =
          .ok loaded ∧ loaded.graph.hasEdge "a" "b" := by
  have hscan : scan (pairTree true) ".java" "src" =
      .ok ⟨["src/a/A.java", "src/b/B.java"], []⟩ := by decide +kernel
  have hscan' : scan (pairTree false) ".java" "src" =
      .ok ⟨["src/a/A.java", "src/b/B.java"], []⟩ := by decide +kernel
  have hab : Contributes ⟨"src", withoutC.excludes⟩ (pairTree true) "src/a/A.java" "a" "b" :=
    ⟨by decide +kernel, by decide +kernel, ⟨"import b.B;\nimport c.C;\n", by decide +kernel,
      "import b.B;", by decide +kernel, by decide +kernel⟩, by decide +kernel⟩
  have hba : Contributes ⟨"src", withoutC.excludes⟩ (pairTree true) "src/b/B.java" "b" "a" :=
    ⟨by decide +kernel, by decide +kernel, ⟨"import a.A;\n", by decide +kernel,
      "import a.A;", by decide +kernel, by decide +kernel⟩, by decide +kernel⟩
  obtain ⟨loaded, hload, hedges, hkept, -, hunreadable⟩ :=
    load_eq_imports withoutC.excludes .none hscan
  obtain ⟨loaded', hload', hedges'⟩ := hunreadable (pairTree false) _ "src/b/B.java"
    ⟨"open", "src/b/B.java", .denied⟩ hscan' rfl (by decide +kernel) (by decide +kernel)
  refine ⟨hscan, ⟨loaded, hload, (hedges _ _).2 ⟨_, by decide, hba⟩, fun hc => ?_⟩, loaded', hload',
    (hedges' _ _).2 ⟨_, by decide, by decide, hab⟩⟩
  have hexcluded : withoutC.excludes "c" = true := by decide +kernel
  exact nomatch hexcluded.symm.trans (hkept _ hc)

end

end Source

end PackageCycles
