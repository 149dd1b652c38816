import PackageCycles.FileTree.Basic
import PackageCycles.Import.Cache
import PackageCycles.Import.Owner
import PackageCycles.Import.Statement

/-!
# The imports of a file

`Extractor.extract` reads one compilation unit and lists the packages it imports, leaving out those
that are excluded. A file without a package or with an excluded one is skipped without being read,
and a file that cannot be read contributes nothing. With a cache, the statements of a file are
parsed again only if its size or its time of last modification has changed; the cache keeps what was
parsed before exclusion, so it can serve extractors with different exclusions.
-/

namespace PackageCycles.Import

/-- Where compilation units are read from and which packages are left out. -/
structure Extractor where
  /-- The source directory. -/
  root : Text
  /-- The packages left out. -/
  excluded : Package → Bool

/-- What was read off one compilation unit. -/
structure FileImports where
  /-- The path of the file. -/
  path : Text
  /-- Its package, empty if it has none. -/
  package : Package
  /-- The packages it imports, in increasing order and without excluded ones. -/
  imports : List Package
  /-- It has no package or an excluded one. -/
  skipped : Bool
  /-- Why it could not be read. -/
  error : Option FileError
  deriving DecidableEq

/-- The imports of a file as parsed, the cache afterwards, and for each look-up whether it was
answered. -/
structure Reading (σ : Type) where
  /-- The imports before exclusion. -/
  imports : Except FileError (List Package)
  /-- The cache afterwards. -/
  cache : Option (CacheOver σ)
  /-- The look-ups. -/
  lookups : List Bool

/-- The stamp of a node. What is no regular file has a size that no file has, so no entry about a
file is ever taken for one about it. -/
def stampOf : Node → Stamp
  | .file content modified _ => ⟨content.length, modified⟩
  | _ => ⟨-1, 0⟩

/-- Nothing but a regular file has the stamp of one. -/
theorem isFile_of_stampOf_eq {node : Node} {content : Text} {modified : Int} {readable : Bool}
    (h : stampOf node = stampOf (.file content modified readable)) : node.isFile := by
  cases node with
  | file => rfl
  | link => simp [stampOf] at h
  | special => simp [stampOf] at h
  | directory => simp [stampOf] at h

/-- Reads and parses a file. -/
def parseFile (t : FileTree) (path : Text) : Except FileError (List Package) :=
  (t.readContent path).map parse

section
variable {σ : Type} [Store σ CacheEntry]

/-- The imports of a file, from the cache if there is one that knows them. -/
def read (t : FileTree) (cache : Option (CacheOver σ)) (path : Text) : Reading σ :=
  match cache with
  | none => ⟨parseFile t path, none, []⟩
  | some cache =>
    match t.stat path with
    | .error e => ⟨.error e, some cache, []⟩
    | .ok node =>
      match cache.lookup path (stampOf node) with
      | (some imports, cache) => ⟨.ok imports, some cache, [true]⟩
      | (none, cache) =>
        match parseFile t path with
        | .error e => ⟨.error e, some cache, [false]⟩
        | .ok imports => ⟨.ok imports, some (cache.insert path ⟨stampOf node, imports⟩), [false]⟩

/-- The imports of one compilation unit, the cache afterwards and the look-ups made. -/
def Extractor.extract (x : Extractor) (t : FileTree) (cache : Option (CacheOver σ)) (path : Text) :
    FileImports × Option (CacheOver σ) × List Bool :=
  match owner? x.root path with
  | none => (⟨path, [], [], true, none⟩, cache, [])
  | some package =>
    if x.excluded package then (⟨path, package, [], true, none⟩, cache, [])
    else
      let reading := read t cache path
      let result : FileImports :=
        match reading.imports with
        | .error e => ⟨path, package, [], false, some e⟩
        | .ok imports => ⟨path, package, imports.filter (!x.excluded ·), false, none⟩
      (result, reading.cache, reading.lookups)

end

end PackageCycles.Import
