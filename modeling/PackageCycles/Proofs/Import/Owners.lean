import PackageCycles.Import.Owner
import PackageCycles.Proofs.FileTree.WellFormed
import PackageCycles.Proofs.Scan.Trails
import PackageCycles.Proofs.Text.Separator

/-!
# The package of a file is the trail to it

A scan spells the path of a file by joining the names on its trail to the root, and the package of
the file is found by comparing both spellings. Whatever the spelling of the root, the names that come
out are those of the trail (`Import.owner?_pathBelow`), so the directories that a scan enters on the
way to a file make up its package (`Import.owner?_eq_trail`).
-/

namespace PackageCycles

open Scan

section
variable {t : FileTree} {suffix root name name' : Text} {entries : List (Text × Node)} {node : Node}
  {directories directories' : List Text}

/-! ## Names on a trail -/

/-- The names on the trail of a unit are names of entries. -/
theorem Scan.Finds.forall_isName (h : Finds t suffix root directories name)
    (ht : t.root.isWellFormed) : ∀ n ∈ directories ++ [name], Path.IsName n := by
  obtain ⟨-, entries, node, hentries, hleads, -⟩ := h
  have hwell := FileTree.areWellFormed_of_readDirectory ht hentries
  rcases hleads with hmem | ⟨hmem, -, hinner, hleads⟩
  · simpa using ((Node.areWellFormed_iff.1 hwell).1 _ hmem).1
  · obtain ⟨hname, -⟩ := (Node.areWellFormed_iff.1 hwell).1 _ hmem
    exact List.forall_mem_cons.2
      ⟨hname, hleads.forall_isName (FileTree.areWellFormed_of_readDirectory ht hinner)⟩

/-- The empty path leads nowhere. -/
theorem Scan.Finds.root_ne_nil (h : Finds t suffix root directories name) : root ≠ [] := by
  rintro rfl
  obtain ⟨entries, access, h⟩ := h.root_isDirectory
  cases h

namespace Import

/-! ## Packages -/

/-- The package of a path that names were joined to are all of them but the last. -/
theorem owner?_pathBelow (hroot : root ≠ [])
    (hnames : ∀ n ∈ directories ++ [name], Path.IsName n) :
    owner? root (pathBelow root (directories ++ [name])) =
      if directories = [] then none else some (Text.join [Text.byte '.'] directories) := by
  rw [owner?, pathBelow, Path.below?_foldl_join hroot hnames]
  simp only [List.dropLast_concat]
  cases directories <;> rfl

theorem owner?_eq_iff (hroot : root ≠ []) (hnames : ∀ n ∈ directories ++ [name], Path.IsName n)
    (hnames' : ∀ n ∈ directories' ++ [name'], Path.IsName n)
    (hdots : ∀ d ∈ directories ++ directories', Text.byte '.' ∉ d) :
    owner? root (pathBelow root (directories ++ [name])) =
      owner? root (pathBelow root (directories' ++ [name'])) ↔ directories = directories' := by
  refine ⟨fun h => ?_, fun h => ?_⟩
  · rw [owner?_pathBelow hroot hnames, owner?_pathBelow hroot hnames'] at h
    by_cases hnil : directories = [] <;> by_cases hnil' : directories' = []
    · rw [hnil, hnil']
    · rw [if_pos hnil, if_neg hnil'] at h
      cases h
    · rw [if_neg hnil, if_pos hnil'] at h
      cases h
    · rw [if_neg hnil, if_neg hnil'] at h
      obtain ⟨hdirectories, hdirectories'⟩ := List.forall_mem_append.1 hdots
      exact Text.join_inj hnil hnil'
        (fun d hd => Text.free_byte_iff.2 (hdirectories d hd))
        (fun d hd => Text.free_byte_iff.2 (hdirectories' d hd)) (Option.some.inj h)
  · subst h
    rw [owner?_pathBelow hroot hnames, owner?_pathBelow hroot hnames']

/-- A scan and the packages of the files that it finds agree, whatever the spelling of the root. Each
file stands at the end of a trail, and its package is made up of the directories on the trail; only a
file just below the root has none. So if the names of directories hold no dot, two files have the
same package exactly if they are in the same directory. -/
theorem owner?_eq_trail {found : Scan} (ht : t.root.isWellFormed)
    (hscan : scan t suffix root = .ok found) :
    (∀ path, path ∈ found.files ↔
      ∃ directories name, Finds t (suffixInEffect suffix) root directories name ∧
        path = pathBelow root (directories ++ [name])) ∧
    (∀ directories name, Finds t (suffixInEffect suffix) root directories name →
      (directories ≠ [] → owner? root (pathBelow root (directories ++ [name])) =
        some (Text.join [Text.byte '.'] directories)) ∧
      (owner? root (pathBelow root (directories ++ [name])) = none ↔ directories = [])) ∧
    ∀ directories name directories' name', Finds t (suffixInEffect suffix) root directories name →
      Finds t (suffixInEffect suffix) root directories' name' →
      (∀ d ∈ directories ++ directories', Text.byte '.' ∉ d) →
      (owner? root (pathBelow root (directories ++ [name])) =
        owner? root (pathBelow root (directories' ++ [name'])) ↔ directories = directories') := by
  refine ⟨fun path => mem_files_iff hscan, fun directories name h => ?_,
    fun directories name directories' name' h h' hdots =>
      owner?_eq_iff h.root_ne_nil (h.forall_isName ht) (h'.forall_isName ht) hdots⟩
  rw [owner?_pathBelow h.root_ne_nil (h.forall_isName ht)]
  refine ⟨fun hne => if_neg hne, fun hnone => ?_, fun hnil => if_pos hnil⟩
  by_contra hne
  rw [if_neg hne] at hnone
  cases hnone

/-- A source directory with units in itself, in a directory of its own and further down. -/
def nestedTree : FileTree where
  root := .directory [("src", .directory
    [("Top.java", .file [] 0 true),
      ("a", .directory
        [("A.java", .file [] 0 true),
          ("b", .directory [("B.java", .file [] 0 true)] .full)] .full)] .full)] .full
  workingDirectory := []

/-- The root is spelled with a dot, a step down and up again and doubled slashes at its end; the unit
two directories below it is in the package that both directories name. -/
theorem owner?_eq_trail_nestedTree :
    nestedTree.root.isWellFormed ∧
      scan nestedTree ".java" "./src/a/..//" =
        .ok ⟨["src/Top.java", "src/a/A.java", "src/a/b/B.java"], []⟩ ∧
      Finds nestedTree ".java" "./src/a/..//" ["a", "b"] "B.java" ∧
      owner? "./src/a/..//" "src/a/b/B.java" = some "a.b" := by
  have hwell : nestedTree.root.isWellFormed := by decide +kernel
  have hscan : scan nestedTree ".java" "./src/a/..//" =
      .ok ⟨["src/Top.java", "src/a/A.java", "src/a/b/B.java"], []⟩ := by decide +kernel
  have hfinds : Finds nestedTree ".java" "./src/a/..//" ["a", "b"] "B.java" := by
    refine ⟨⟨_, _, rfl⟩, _, .file [] 0 true, rfl, ?_, by decide, .inl rfl⟩
    exact .into (.tail _ (.head _)) rfl rfl (.into (.tail _ (.head _)) rfl (.here (.head _)))
  obtain ⟨-, howner, -⟩ := owner?_eq_trail hwell hscan
  exact ⟨hwell, hscan, hfinds, (howner _ _ hfinds).1 (by decide)⟩

end Import

end

end PackageCycles
