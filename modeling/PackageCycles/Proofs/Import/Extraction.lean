import PackageCycles.Import.Extract
import PackageCycles.Proofs.Graph.Edges
import PackageCycles.Proofs.Path.NormalForm

/-!
# What is read off a compilation unit

The packages parsed from a compilation unit are those that one of its lines imports (`mem_parse`).
Neither an import statement nor the directory of a file ever names the empty package
(`ne_nil_of_parseLine?_eq_some`, `ne_nil_of_owner?_eq_some`), so no edge is lost when the graph
leaves out the empty name.
-/

namespace PackageCycles

/-! ## Owners -/

/-- Parts joined by a separator are not empty if the first part is not. -/
theorem Text.join_ne_nil {separator part : Text} {parts : List Text} (h : part ≠ []) :
    Text.join separator (part :: parts) ≠ [] := by
  cases parts with
  | nil => simpa [Text.join, List.intercalate] using h
  | cons next parts => simp [Text.join, List.intercalate, h]

namespace Path

/-- No element on the way from a root down to a path is empty. -/
theorem ne_nil_of_mem_below? {root path e : Text} {elements : List Text}
    (h : below? root path = some elements) (he : e ∈ elements) : e ≠ [] := by
  unfold below? at h
  dsimp only at h
  split at h
  next =>
    split at h
    · cases h
    · cases h
      exact (isNormal_ofText path).ne_nil e (List.mem_of_mem_drop he)
  next => cases h

end Path

namespace Import

/-- The package of a file has a name. -/
theorem ne_nil_of_owner?_eq_some {root path : Text} {p : Package} (h : owner? root path = some p) :
    p ≠ [] := by
  unfold owner? at h
  split at h
  next elements helements =>
    split at h
    next => cases h
    next hne =>
      cases h
      obtain ⟨directory, directories, hcons⟩ := List.exists_cons_of_ne_nil hne
      have hmem : directory ∈ elements :=
        List.dropLast_subset elements (hcons ▸ List.mem_cons_self)
      rw [hcons]
      exact Text.join_ne_nil (Path.ne_nil_of_mem_below? helements hmem)
  next => cases h

/-! ## Statements -/

/-- The package that a statement depends on has a name. -/
theorem ne_nil_of_parseLine?_eq_some {line : Text} {p : Package} (h : parseLine? line = some p) :
    p ≠ [] := by
  simp only [parseLine?, Option.bind_eq_bind, Option.bind_eq_some_iff] at h
  obtain ⟨statement, -, h⟩ := h
  split at h
  next => cases h
  next =>
    obtain ⟨package, -, h⟩ := Option.bind_eq_some_iff.1 h
    split at h
    next => cases h
    next hne =>
      cases h
      simpa using hne

/-- The packages parsed are those that a line imports. -/
theorem mem_parse {content : Text} {q : Package} :
    q ∈ parse content ↔
      ∃ line ∈ content.splitOn (Text.byte '\n'), parseLine? line.trim = some q := by
  rw [parse, Ordered.mem_ofList, List.mem_filterMap]

/-- The file can be read, and one of its lines imports the package. -/
def Imports (t : FileTree) (path : Text) (q : Package) : Prop :=
  ∃ content, t.readContent path = .ok content ∧
    ∃ line ∈ content.splitOn (Text.byte '\n'), parseLine? line.trim = some q

/-- A file that cannot be read imports nothing. -/
theorem not_imports_of_error {t : FileTree} {path : Text} {e : FileError}
    (h : t.readContent path = .error e) (q : Package) : ¬ Imports t path q := by
  rintro ⟨content, hcontent, -⟩
  rw [h] at hcontent
  cases hcontent

/-! ## The cache -/

/-- An extraction changes the cache at most as reading the file does. -/
theorem Extractor.extract_cache_eq_or {σ : Type} [Store σ CacheEntry] (x : Extractor) (t : FileTree)
    (cache : Option (CacheOver σ)) (path : Text) :
    (x.extract t cache path).2.1 = cache ∨
      (x.extract t cache path).2.1 = (read t cache path).cache := by
  unfold Extractor.extract
  split
  next => exact .inl rfl
  next =>
    split
    next => exact .inl rfl
    next => exact .inr rfl

end Import

end PackageCycles
