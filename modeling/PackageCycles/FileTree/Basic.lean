import PackageCycles.Path

/-!
# File trees

A file tree is a value: directories with named entries, regular files with their bytes and time of
last modification, symbolic links, and special files, of which nothing but their kind is known.
`FileTree.resolve` follows a path element by element, as the system calls do: `..` is the parent of
the directory reached, a link is replaced by its target, and after forty links the path is given up.
The operations that read the tree (`stat`, `readContent`, `readDirectory`) fail with the operation,
the path as it was given, and the fault.

To list a directory and to go through it are two things, and a directory may allow either without
the other (`Access`). Leave to write is not kept apart from leave to read: a file that may be opened
may be written, and a directory that may be gone through takes new entries.
-/

namespace PackageCycles

/-- Why a path cannot be used. -/
inductive Fault where
  | notFound
  | notDirectory
  | denied
  | tooManyLinks
  | nameTooLong
  | invalidPath
  | isDirectory
  | exists
  | separatorInName
  | noDevice
  deriving DecidableEq

/-- The wording of a fault. -/
def Fault.message : Fault → Text
  | .notFound => "no such file or directory"
  | .notDirectory => "not a directory"
  | .denied => "permission denied"
  | .tooManyLinks => "too many levels of symbolic links"
  | .nameTooLong => "file name too long"
  | .invalidPath => "invalid argument"
  | .isDirectory => "is a directory"
  | .exists => "file exists"
  | .separatorInName => "pattern contains path separator"
  | .noDevice => "no such device or address"

/-- A failed operation on a path. -/
structure FileError where
  /-- The operation. -/
  operation : Text
  /-- The path as it was given. -/
  path : Text
  /-- What is wrong with it. -/
  fault : Fault
  deriving DecidableEq

/-- The wording of a failed operation. -/
def FileError.message (e : FileError) : Text :=
  e.operation ++ " " ++ e.path ++ ": " ++ e.fault.message

/-- What may be done with a directory. -/
structure Access where
  /-- Its entries may be listed. -/
  listable : Bool
  /-- Paths may go through it. -/
  searchable : Bool
  deriving DecidableEq

/-- Everything may be done. -/
def Access.full : Access := ⟨true, true⟩

/-- Nothing may be done. -/
def Access.none : Access := ⟨false, false⟩

/-- What a name in a directory stands for. -/
inductive Node where
  /-- A regular file: its bytes, its time of last modification in nanoseconds, and whether it may
  be opened. -/
  | file (content : Text) (modified : Int) (readable : Bool)
  /-- A symbolic link to the given path. -/
  | link (target : Text)
  /-- A pipe, a socket or a device. It has a place in the tree, and opening it fails. -/
  | special
  /-- A directory: its entries in increasing order of their names, and what may be done with it. -/
  | directory (entries : List (Text × Node)) (access : Access)

namespace Node

/-- The directory without entries. -/
def emptyDirectory : Node := .directory [] .full

/-- The node is a directory. -/
def isDirectory : Node → Bool
  | .directory .. => true
  | _ => false

/-- The node is a regular file. -/
def isFile : Node → Bool
  | .file .. => true
  | _ => false

/-- The entries with `name` standing for `node`, in the place that keeps the names increasing. -/
def setEntry (name : Text) (node : Node) : List (Text × Node) → List (Text × Node)
  | [] => [(name, node)]
  | (other, old) :: rest =>
    if name = other then (name, node) :: rest
    else if name < other then (name, node) :: (other, old) :: rest
    else (other, old) :: setEntry name node rest

/-- The node with `new` at the given elements below it. Directories on the way are made where there
are none. -/
def put (new : Node) : List Text → Node → Node
  | [], _ => new
  | name :: rest, .directory entries access =>
    let old := (entries.lookup name).getD emptyDirectory
    .directory (setEntry name (put new rest old) entries) access
  | name :: rest, _ => .directory [(name, put new rest emptyDirectory)] .full

/-- The node without what stands at the given elements below it. -/
def erase : List Text → Node → Node
  | [name], .directory entries access =>
    .directory (entries.filter fun entry => entry.1 ≠ name) access
  | name :: rest, .directory entries access =>
    match entries.lookup name with
    | some old => .directory (setEntry name (erase rest old) entries) access
    | none => .directory entries access
  | _, node => node

/-- The node with nobody allowed to open, enter or list it. -/
def deny : Node → Node
  | .file content modified _ => .file content modified false
  | .link target => .link target
  | .special => .special
  | .directory entries _ => .directory entries .none

end Node

/-- A file tree with a working directory. -/
structure FileTree where
  /-- The root directory. -/
  root : Node
  /-- The names that lead from the root to the working directory. -/
  workingDirectory : List Text

/-- A node with the way to it: the names and nodes from the root on, the node itself first. -/
abbrev Place := List (Text × Node)

namespace FileTree

/-- The tree in which nothing is below the working directory. -/
def empty : FileTree :=
  { root := .directory [("work", .emptyDirectory)] .full
    workingDirectory := ["work"] }

/-- The greatest length of a name in a directory. -/
def maxNameLength : Nat := 255

/-- The greatest length of a path. -/
def maxPathLength : Nat := 4095

/-- How many links are followed on one path. -/
def maxLinks : Nat := 40

/-- The elements of a path as they are followed. A slash at the end asks for a directory, as an
element `.` does. -/
def elements (path : Text) : List Text :=
  if path.getLast? = some Path.separator then Path.split path ++ [Text.ofString "."]
  else Path.split path

/-- Where following a path starts: at the root or at `current`. -/
def startOf (root current : Place) (path : Text) : Place :=
  if Path.isAbsolute path then root else current

/-- Follows elements from a place. A link in the way, or at the end if `last` says so, is handed to
`follow` together with the place it stands in. -/
def walk (last : Bool) (follow : Place → Text → List Text → Except Fault Place) :
    Place → List Text → Except Fault Place
  | here, [] => .ok here
  | here, name :: rest =>
    match here with
    | (_, .directory entries access) :: above =>
      if !access.searchable then .error .denied
      else if name = "." then walk last follow here rest
      else if name = ".." then walk last follow (if above.isEmpty then here else above) rest
      else if maxNameLength < name.length then .error .nameTooLong
      else match entries.lookup name with
        | none => .error .notFound
        | some (.link target) =>
          if rest.isEmpty && !last then .ok ((name, .link target) :: here)
          else follow here target rest
        | some node => walk last follow ((name, node) :: here) rest
    | _ => .error .notDirectory

/-- Follows elements from a place and at most `links` links. -/
def walkLinks (root : Place) (last : Bool) : (links : Nat) → Place → List Text → Except Fault Place
  | 0 => walk last fun _ _ _ => .error .tooManyLinks
  | links + 1 => walk last fun here target rest =>
    walkLinks root last links (startOf root here target) (elements target ++ rest)

/-- The place of the root. -/
def rootPlace (t : FileTree) : Place := [([], t.root)]

/-- The place reached by names alone, as far as they exist. -/
def descend : Place → List Text → Place
  | here, [] => here
  | here, name :: rest =>
    match here with
    | (_, .directory entries _) :: _ =>
      match entries.lookup name with
      | some node => descend ((name, node) :: here) rest
      | none => here
    | _ => here

/-- The place of the working directory. -/
def workingPlace (t : FileTree) : Place := descend t.rootPlace t.workingDirectory

/-- Follows a path; `last` says whether a link at its end is followed. -/
def resolve (t : FileTree) (last : Bool) (path : Text) : Except Fault Place :=
  if path.contains 0 then .error .invalidPath
  else if path.isEmpty then .error .notFound
  else if maxPathLength < path.length then .error .nameTooLong
  else walkLinks t.rootPlace last maxLinks (startOf t.rootPlace t.workingPlace path) (elements path)

/-- The node at a place. -/
def nodeAt (t : FileTree) : Place → Node
  | [] => t.root
  | (_, node) :: _ => node

/-- What a path stands for, following a link at its end. -/
def stat (t : FileTree) (path : Text) : Except FileError Node :=
  match t.resolve true path with
  | .ok place => .ok (t.nodeAt place)
  | .error fault => .error ⟨"stat", path, fault⟩

/-- What a path stands for, not following a link at its end. -/
def statLink (t : FileTree) (path : Text) : Except FileError Node :=
  match t.resolve false path with
  | .ok place => .ok (t.nodeAt place)
  | .error fault => .error ⟨"lstat", path, fault⟩

/-- The bytes of the file at a path. -/
def readContent (t : FileTree) (path : Text) : Except FileError Text :=
  match t.resolve true path with
  | .error fault => .error ⟨"open", path, fault⟩
  | .ok place =>
    match t.nodeAt place with
    | .file content _ true => .ok content
    | .directory _ ⟨true, _⟩ => .error ⟨"read", path, .isDirectory⟩
    | .special => .error ⟨"open", path, .noDevice⟩
    | _ => .error ⟨"open", path, .denied⟩

/-- The entries of the directory at a path in increasing order of their names. -/
def readDirectory (t : FileTree) (path : Text) : Except FileError (List (Text × Node)) :=
  match t.resolve true path with
  | .error fault => .error ⟨"open", path, fault⟩
  | .ok place =>
    match t.nodeAt place with
    | .directory entries ⟨true, _⟩ => .ok entries
    | .directory _ ⟨false, _⟩ => .error ⟨"open", path, .denied⟩
    | _ => .error ⟨"open", path, .notDirectory⟩

/-- A path names something. -/
def exists? (t : FileTree) (path : Text) : Bool := (t.stat path).isOk

end FileTree

end PackageCycles
