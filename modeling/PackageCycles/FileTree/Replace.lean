import PackageCycles.FileTree.Change

/-!
# Replacing a file in one step

A file that others may be reading is replaced as a whole: the new content is written to a temporary
file beside it, which is then given the name. The name of the temporary file is the name with some
digits at the end, or in place of its last star.
-/

namespace PackageCycles.FileTree

/-- The name with digits put in. -/
def temporaryName (name digits : Text) : Text :=
  match name.beforeLast? (Text.byte '*') with
  | some before => before ++ digits ++ name.afterLast (Text.byte '*')
  | none => name ++ digits

/-- The path of the temporary file for a path. -/
def temporaryPath (path digits : Text) : Text :=
  let directory := Path.directory path
  let name := temporaryName (Path.base path) digits
  if directory = [Path.separator] then directory ++ name
  else directory ++ Path.separator :: name

/-- Gives the content of a temporary file to a path. A directory is not replaced. -/
def rename (t : FileTree) (temporary path content : Text) (modified : Int) :
    Except FileError FileTree :=
  let failed := fun (fault : Fault) => FileError.mk "rename" (temporary ++ " " ++ path) fault
  match t.statLink path with
  | .ok (.directory ..) => .error (failed .exists)
  | _ => (t.setEntry path (.file content modified true)).mapError failed

/-- Replaces the file at a path, or makes it. -/
def replaceFile (t : FileTree) (path content digits : Text) (modified : Int) :
    Except FileError FileTree := do
  let name := Path.base path
  if name.contains Path.separator then throw ⟨"createtemp", name, .separatorInName⟩
  let temporary := temporaryPath path digits
  let _ ← (t.setEntry temporary (.file content modified true)).mapError (FileError.mk "open" temporary)
  t.rename temporary path content modified

end PackageCycles.FileTree
