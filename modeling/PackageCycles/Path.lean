import PackageCycles.Text.Basic

/-!
# Paths

A path names a file by the directories on the way to it, with a slash between neighbours. Two
spellings that differ in doubled slashes, in `.` elements or in an element followed by `..` have the
same lexical normal form (`Path.ofText`), which is computed without looking at any file. Paths are
joined and compared through this form.
-/

namespace PackageCycles

/-- A path in lexical normal form. -/
structure Path where
  /-- The path starts at the root. -/
  absolute : Bool
  /-- The elements. None is empty or `.`, and `..` occurs only at the start of a relative path. -/
  elements : List Text
  deriving DecidableEq

namespace Path

/-- The byte between elements. -/
def separator : UInt8 := Text.byte '/'

/-- The elements of a path as written, without empty ones. -/
def split (path : Text) : List Text := (path.splitOn separator).filter (· ≠ [])

/-- The path is written from the root on. -/
def isAbsolute (path : Text) : Bool := path.head? = some separator

/-- One more element, in reverse order: `.` adds nothing, and `..` takes back the element before it.
Above the root there is nothing to take back. -/
def addElement (absolute : Bool) (reversed : List Text) (element : Text) : List Text :=
  if element = "." then reversed
  else if element = ".." then
    match reversed with
    | [] => if absolute then [] else [".."]
    | last :: before => if last = ".." then ".." :: reversed else before
  else element :: reversed

/-- The lexical normal form of a path. -/
def ofText (path : Text) : Path :=
  { absolute := isAbsolute path
    elements := ((split path).foldl (addElement (isAbsolute path)) []).reverse }

/-- The normal form written out. The relative path without elements is `.`. -/
def toText (p : Path) : Text :=
  if p.absolute then separator :: Text.join [separator] p.elements
  else if p.elements.isEmpty then "."
  else Text.join [separator] p.elements

/-- The path with its spelling brought to normal form. -/
def clean (path : Text) : Text := (ofText path).toText

/-- The path of `name` in the directory `directory`; an empty part is left out. -/
def join (directory name : Text) : Text :=
  if directory = [] then if name = [] then [] else clean name
  else clean (directory ++ separator :: name)

/-- The elements that lead from `root` down to `path`, if by its spelling it lies at or below
`root`. -/
def below? (root path : Text) : Option (List Text) :=
  let base := ofText root
  let target := ofText path
  if base.absolute = target.absolute ∧ base.elements.isPrefixOf target.elements then
    let rest := target.elements.drop base.elements.length
    if rest.head? = some ".." then none else some rest
  else none

/-- The last element as written. -/
def fileName (path : Text) : Text := path.afterLast separator

/-- The directory that a path lies in, in normal form: what stands before the last slash. -/
def directory (path : Text) : Text :=
  match path.beforeLast? separator with
  | some before => clean (before ++ [separator])
  | none => "."

/-- The last element of a path, not counting slashes at its end. The path of slashes alone is its
own last element, and the empty path has the last element `.`. -/
def base (path : Text) : Text :=
  if path = [] then "."
  else match (split path).getLast? with
    | some name => name
    | none => [separator]

/-- The last element from its last dot on; empty if it has no dot. -/
def extension (path : Text) : Text :=
  let name := fileName path
  if name.contains (Text.byte '.') then Text.byte '.' :: name.afterLast (Text.byte '.') else []

end Path

end PackageCycles
