import PackageCycles.Proofs.Analysis.LoadedGraph
import PackageCycles.Proofs.Import.Transparency

/-!
# Loading with a cache

The units of a source directory are read one after the other with the cache that the units before
have left. Each of these readings keeps the entries justified, by the visits made now and before
(`Source.exists_load_cache`). If every unit is as it was at each visit to it at which it had the same
stamp, the graph and the numbers of files are those that are loaded without a cache
(`Source.load_cached`).
-/

namespace PackageCycles

/-- The paths of the compilation units that a scan of `root` finds. -/
def FileTree.units (t : FileTree) (suffix root : Text) : List Text :=
  match scan t suffix root with
  | .ok found => found.files
  | .error _ => []

namespace Import

section
variable {x : Extractor} {t : FileTree} {path : Text} {paths : List Text} {visits : List Visit}
  {c : Cache}

/-! ## One unit after the other -/

/-- Reading with a cache leaves one. -/
theorem isSome_cache_read : (read t (some c) path).cache.isSome := by
  unfold read
  dsimp only
  split
  next => rfl
  next =>
    split
    next => rfl
    next => split <;> rfl

theorem Extractor.exists_extract_cache (x : Extractor) (h : c.Justified visits)
    (hv : ⟨t, path⟩ ∈ visits) :
    ∃ c', (x.extract t (some c) path).2.1 = some c' ∧ c'.Justified visits := by
  rcases x.extract_cache_eq_or t (some c) path with heq | heq
  · exact ⟨c, heq, h⟩
  · obtain ⟨c', hc'⟩ := Option.isSome_iff_exists.1 (isSome_cache_read (t := t) (c := c))
    exact ⟨c', heq.trans hc', h.read hv c' hc'⟩

theorem Extractor.exists_extractAll_cache (x : Extractor) (h : c.Justified visits)
    (hv : ∀ path ∈ paths, ⟨t, path⟩ ∈ visits) :
    ∃ c', (x.extractAll t (some c) paths).2 = some c' ∧ c'.Justified visits := by
  induction paths generalizing c with
  | nil => exact ⟨c, rfl, h⟩
  | cons path rest ih =>
    obtain ⟨hpath, hrest⟩ := List.forall_mem_cons.1 hv
    obtain ⟨c', hc', h'⟩ := x.exists_extract_cache h hpath
    rcases hextract : x.extract t (some c) path with ⟨file, cache, lookups⟩
    rw [hextract] at hc'
    subst hc'
    simp only [Extractor.extractAll, hextract]
    exact ih h' hrest

/-- Each unit is read with a cache as it is without. -/
theorem Extractor.extractAll_agrees (x : Extractor) (h : c.Justified visits)
    (hv : ∀ path ∈ paths, ⟨t, path⟩ ∈ visits)
    (htold : ∀ path ∈ paths, (⟨t, path⟩ : Visit).IsTold visits) :
    List.Forall₂ FileImports.Agrees ((x.extractAll t (some c) paths).1.map (·.1))
      ((x.extractAll t (none : Option Cache) paths).1.map (·.1)) := by
  rw [x.map_extractAll]
  induction paths generalizing c with
  | nil => exact .nil
  | cons path rest ih =>
    obtain ⟨hpath, hrest⟩ := List.forall_mem_cons.1 hv
    obtain ⟨htoldPath, htoldRest⟩ := List.forall_mem_cons.1 htold
    obtain ⟨c', hc', h'⟩ := x.exists_extract_cache h hpath
    have hfile : (x.extract t (some c) path).1.Agrees
        (x.extract t (none : Option Cache) path).1 :=
      x.extract_agrees ((read_imports_cached htoldPath h).trans (toOption_parseFile _).symm)
    rcases hextract : x.extract t (some c) path with ⟨file, cache, lookups⟩
    rw [hextract] at hc' hfile
    subst hc'
    simp only [Extractor.extractAll, hextract]
    exact .cons hfile (ih h' hrest htoldRest)

/-! ## What is made of them -/

theorem FileImports.Agrees.failed_eq {r r' : FileImports} (h : r.Agrees r') :
    r.failed = r'.failed := h.error

theorem FileImports.Agrees.dependencies?_eq {r r' : FileImports} (h : r.Agrees r') :
    r.dependencies? = r'.dependencies? := by
  rw [FileImports.dependencies?, h.failed_eq, h.skipped, h.package, h.imports,
    FileImports.dependencies?]

end

end Import

namespace Source
open Import

section
variable {suffix root : Text} {excluded : Package → Bool} {t : FileTree} {timing : Timing}
  {visits : List Visit} {c : Cache}

theorem countFiles_congr {found : Scan} {files files' : List FileImports}
    (h : List.Forall₂ FileImports.Agrees files files') :
    countFiles found files = countFiles found files' := by
  have hcounts : files.countP (fun f => !f.failed && f.skipped) =
      files'.countP (fun f => !f.failed && f.skipped) ∧
      files.countP (·.failed) = files'.countP (·.failed) := by
    induction h with
    | nil => exact ⟨rfl, rfl⟩
    | cons h _ ih => simp only [List.countP_cons, h.failed_eq, h.skipped, ih, and_self]
  rw [countFiles, h.length_eq, hcounts.1, hcounts.2, countFiles]

theorem filterMap_dependencies?_congr {files files' : List FileImports}
    (h : List.Forall₂ FileImports.Agrees files files') :
    files.filterMap (·.dependencies?) = files'.filterMap (·.dependencies?) := by
  induction h with
  | nil => rfl
  | cons h _ ih => simp only [List.filterMap_cons, h.dependencies?_eq, ih]

/-- Loading leaves a cache whose entries are justified. -/
theorem exists_load_cache (excluded : Package → Bool) (timing : Timing) (h : c.Justified visits)
    (hv : ∀ path ∈ t.units suffix root, ⟨t, path⟩ ∈ visits) :
    ∃ c', ((ofFiles suffix excluded).load t (some c) timing root).cache = some c' ∧
      c'.Justified visits := by
  unfold FileTree.units at hv
  simp only [ofFiles]
  cases hscan : scan t suffix root with
  | error cause => exact ⟨c, rfl, h⟩
  | ok found =>
    rw [hscan] at hv
    exact Extractor.exists_extractAll_cache _ h hv

/-- What is loaded with a cache is what is loaded without, if every unit is as it was at each visit to
it at which it had the stamp that it has now. -/
theorem load_cached (h : c.Justified visits)
    (hv : ∀ path ∈ t.units suffix root, ⟨t, path⟩ ∈ visits)
    (htold : ∀ path ∈ t.units suffix root, (⟨t, path⟩ : Visit).IsTold visits) :
    ((ofFiles suffix excluded).load t (some c) timing root).result =
      ((ofFiles suffix excluded).load t none timing root).result := by
  unfold FileTree.units at hv htold
  simp only [ofFiles]
  cases hscan : scan t suffix root with
  | error cause => rfl
  | ok found =>
    rw [hscan] at hv htold
    have hagree := Extractor.extractAll_agrees ⟨root, excluded⟩ h hv htold
    dsimp only
    rw [countFiles_congr hagree, filterMap_dependencies?_congr hagree]

end

end Source

end PackageCycles
