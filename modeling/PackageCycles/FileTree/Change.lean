import PackageCycles.FileTree.Basic

/-!
# Changes to a file tree

Files are written, links and directories made, and entries removed at paths that are followed as
when reading. `FileTree.make` builds a tree from a list of entries, each of which makes the
directories above it that are missing; what may not be opened is closed only at the end, so that it
can be filled before.
-/

namespace PackageCycles

namespace FileTree

/-- The names from the root to a place. -/
def names (place : Place) : List Text := (place.dropLast.map (·.1)).reverse

/-- The tree with `node` at a place or below it. -/
def putAt (t : FileTree) (place : Place) (below : List Text) (node : Node) : FileTree :=
  { t with root := Node.put node (names place ++ below) t.root }

/-- The directory of a path and the last element, both as written. -/
def parent (path : Text) : Text × Text :=
  match (Path.split path).reverse with
  | [] => (path, [])
  | name :: above =>
    let directory := Text.join [Path.separator] above.reverse
    if Path.isAbsolute path then (Path.separator :: directory, name)
    else if above.isEmpty then (".", name)
    else (directory, name)

/-- The tree with `node` as an entry of the directory that a path lies in. -/
def setEntry (t : FileTree) (path : Text) (node : Node) : Except Fault FileTree := do
  let (directory, name) := parent path
  let place ← t.resolve true directory
  match t.nodeAt place with
  | .directory _ ⟨_, true⟩ =>
    if FileTree.maxNameLength < name.length then throw .nameTooLong
    else return t.putAt place [name] node
  | .directory _ ⟨_, false⟩ => throw .denied
  | _ => throw .notDirectory

/-- Writes a file, which is made if it does not exist. -/
def writeFile (t : FileTree) (path content : Text) (modified : Int) : Except FileError FileTree :=
  let failed := fun (fault : Fault) => FileError.mk "open" path fault
  match t.resolve true path with
  | .ok place =>
    match t.nodeAt place with
    | .file _ _ true => .ok (t.putAt place [] (.file content modified true))
    | .directory .. => .error (failed .isDirectory)
    | .special => .error (failed .noDevice)
    | _ => .error (failed .denied)
  | .error .notFound => (t.setEntry path (.file content modified true)).mapError failed
  | .error fault => .error (failed fault)

/-- Makes the directories that a list of elements names, one below the other, as far as they are
missing. -/
def makeDirectories (t : FileTree) (directory : Text) : List Text → FileTree
  | [] => t
  | name :: rest =>
    let path :=
      if directory.isEmpty then name
      else if directory = [Path.separator] then directory ++ name
      else directory ++ Path.separator :: name
    let made :=
      match t.resolve true path with
      | .error .notFound => ((t.setEntry path .emptyDirectory).toOption).getD t
      | _ => t
    makeDirectories made path rest

/-- Makes the directories of a path that are missing. -/
def makeDirectory (t : FileTree) (path : Text) : FileTree :=
  t.makeDirectories (if Path.isAbsolute path then [Path.separator] else []) (Path.split path)

/-- Removes what a path names, with all that is below it. A path that names nothing is left
alone. -/
def remove (t : FileTree) (path : Text) : FileTree :=
  match t.resolve false path with
  | .ok place => { t with root := t.root.erase (names place) }
  | .error _ => t

/-- Closes what a path names. -/
def deny (t : FileTree) (path : Text) : FileTree :=
  match t.resolve true path with
  | .ok place => t.putAt place [] (t.nodeAt place).deny
  | .error _ => t

/-- What an entry makes. -/
inductive EntryKind where
  /-- A regular file with the given bytes and time of last modification. -/
  | file (content : Text) (modified : Int)
  /-- A symbolic link. -/
  | link (target : Text)
  /-- A directory. -/
  | directory

/-- Something to be made at a path. -/
structure Entry where
  /-- The path. -/
  path : Text
  /-- What is made there. -/
  kind : EntryKind
  /-- It is closed once everything has been made. -/
  closed : Bool

/-- The tree with an entry and the directories above it made. -/
def add (t : FileTree) (entry : Entry) : FileTree :=
  match entry.kind with
  | .directory => t.makeDirectory entry.path
  | .file content modified =>
    let t := t.makeDirectory (parent entry.path).1
    ((t.writeFile entry.path content modified).toOption).getD t
  | .link target =>
    let t := t.makeDirectory (parent entry.path).1
    ((t.setEntry entry.path (.link target)).toOption).getD t

/-- The tree with all entries made, and those closed that are to be. -/
def addAll (t : FileTree) (entries : List Entry) : FileTree :=
  (entries.filter (·.closed)).foldl (fun t e => t.deny e.path) (entries.foldl add t)

/-- The tree that a list of entries makes. -/
def make (entries : List Entry) : FileTree := empty.addAll entries

end FileTree

end PackageCycles
