import PackageCycles.Graph.Basic
import PackageCycles.Path

/-!
# The package of a file

A file belongs to the package that its directory names: the directories from the source root down
to it, joined by dots. What the file itself declares does not matter. A file just below the root, or
outside it, belongs to no package.
-/

namespace PackageCycles.Import

/-- The package of the file at `path` below the source directory `root`. -/
def owner? (root path : Text) : Option Package :=
  match Path.below? root path with
  | some elements =>
    match elements.dropLast with
    | [] => none
    | directories => some (Text.join [Text.byte '.'] directories)
  | none => none

end PackageCycles.Import
