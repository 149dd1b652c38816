import PackageCycles.FileTree.Basic

/-!
# Finding compilation units

`scan` walks a source directory and lists the compilation units in it: the regular files whose name
ends in a given suffix, and the links with such a name that lead to a regular file. Special files
are no units, and linked directories are not entered. The walk goes through each directory in
increasing order of the names. A directory that cannot be listed and a link that leads nowhere are
noted as skipped; only a fault of the source directory itself ends the scan.
-/

namespace PackageCycles

/-- The suffix of compilation units unless another one is configured. -/
def defaultSuffix : Text := ".java"

/-- The suffix that a scan goes by when it is asked for the given one: the default if that is empty.
-/
def suffixInEffect (suffix : Text) : Text := if suffix = [] then defaultSuffix else suffix

@[simp] theorem suffixInEffect_of_ne_nil {suffix : Text} (h : suffix ≠ []) :
    suffixInEffect suffix = suffix := if_neg h

/-- Why a source directory cannot be scanned. -/
inductive ScanError where
  /-- It does not exist. -/
  | missing (root : Text)
  /-- It is not a directory. -/
  | notDirectory (root : Text)
  /-- What it is cannot be found out. -/
  | unreachable (root : Text) (cause : FileError)
  /-- It cannot be listed. -/
  | unlistable (root : Text) (cause : FileError)
  deriving DecidableEq

/-- The wording of a failed scan. -/
def ScanError.message : ScanError → Text
  | .missing root => ("source root not found: " : Text) ++ root
  | .notDirectory root => ("source root is not a directory: " : Text) ++ root
  | .unreachable root cause =>
    ("failed to stat source root " : Text) ++ root ++ ": " ++ cause.message
  | .unlistable root cause => ("failed to walk " : Text) ++ root ++ ": " ++ cause.message

/-- What a scan finds, in the order of the walk. -/
structure Scan where
  /-- The paths of the compilation units. -/
  files : List Text
  /-- The entries that could not be looked at, with the reason. -/
  skipped : List (Text × FileError)
  deriving DecidableEq

namespace Scan

/-- Nothing found. -/
def nothing : Scan := ⟨[], []⟩

/-- One compilation unit found. -/
def found (path : Text) : Scan := ⟨[path], []⟩

/-- One entry skipped. -/
def skip (path : Text) (cause : FileError) : Scan := ⟨[], [(path, cause)]⟩

/-- The findings of one part of the walk followed by those of another. -/
def append (a b : Scan) : Scan := ⟨a.files ++ b.files, a.skipped ++ b.skipped⟩

instance : Append Scan := ⟨append⟩

/-- A link with a suitable name: a compilation unit if it leads to a regular file. -/
def ofLink (t : FileTree) (path : Text) : Scan :=
  match t.stat path with
  | .ok node => if node.isFile then found path else nothing
  | .error cause => skip path cause

mutual

/-- The findings at and below an entry with the given name and path. A directory is listed by its
path, and that leads to the entry itself. -/
def ofNode (t : FileTree) (suffix path name : Text) : Node → Scan
  | .file .. => if suffix.isSuffixOf name then found path else nothing
  | .link _ => if suffix.isSuffixOf name then ofLink t path else nothing
  | .special => nothing
  | .directory entries _ =>
    match t.readDirectory path with
    | .ok _ => ofEntries t suffix path entries
    | .error cause => skip path cause

/-- The findings below the entries of the directory at `path`. -/
def ofEntries (t : FileTree) (suffix path : Text) : List (Text × Node) → Scan
  | [] => nothing
  | (name, node) :: rest =>
    ofNode t suffix (Path.join path name) name node ++ ofEntries t suffix path rest

end

/-- The findings below a directory just under the source directory. Its path in normal form may
lead elsewhere than the way the source directory was reached, so it is followed anew. -/
def ofSubdirectory (t : FileTree) (suffix path : Text) : Scan :=
  match t.readDirectory path with
  | .ok entries => ofEntries t suffix path entries
  | .error cause => skip path cause

/-- The findings at and below an entry of the source directory. -/
def ofTopNode (t : FileTree) (suffix path name : Text) (node : Node) : Scan :=
  if node.isDirectory then ofSubdirectory t suffix path else ofNode t suffix path name node

/-- The findings below the entries of the source directory. -/
def ofTopEntries (t : FileTree) (suffix root : Text) : List (Text × Node) → Scan
  | [] => nothing
  | (name, node) :: rest =>
    ofTopNode t suffix (Path.join root name) name node ++ ofTopEntries t suffix root rest

end Scan

/-- Finds the compilation units below `root`. A root that is itself a link is not entered. An empty
suffix asks for the default. -/
def scan (t : FileTree) (suffix root : Text) : Except ScanError Scan :=
  match t.stat root with
  | .error cause =>
    if cause.fault = .notFound then .error (.missing root) else .error (.unreachable root cause)
  | .ok node =>
    if !node.isDirectory then .error (.notDirectory root)
    else match t.statLink root with
      | .ok (.directory ..) =>
        match t.readDirectory root with
        | .ok entries => .ok (Scan.ofTopEntries t (suffixInEffect suffix) root entries)
        | .error cause => .error (.unlistable root cause)
      | .ok _ => .ok Scan.nothing
      | .error cause => .error (.unlistable root cause)

end PackageCycles
