import PackageCycles.Watch.Basic
import Std.Data.HashMap

/-!
# Changes between two looks

Where changes are not reported by the system they are found by looking at the files from time to
time: a compilation unit that is new was created, one that is gone was removed, and one with another
stamp was written.
-/

namespace PackageCycles.Watch

/-- The compilation units below a directory with their stamps. -/
def stamps (t : FileTree) (suffix root : Text) : List (Text × Import.Stamp) :=
  match scan t suffix root with
  | .error _ => []
  | .ok found => found.files.map fun path =>
    (path, match t.stat path with
      | .ok node => Import.stampOf node
      | .error _ => ⟨0, 0⟩)

/-- What happened to a file that had one stamp before and has another one now. -/
def changeOf? (path : Text) (before : Option Import.Stamp) (now : Import.Stamp) : Option Change :=
  match before with
  | none => some ⟨path, [.create]⟩
  | some stamp => if stamp = now then none else some ⟨path, [.write]⟩

/-- The changes that lead from some compilation units to others. -/
def changesBetween (before now : List (Text × Import.Stamp)) : List Change :=
  let old := Std.HashMap.ofList before
  let new := Std.HashMap.ofList now
  let gone := before.filter fun (path, _) => !new.contains path
  gone.map (fun (path, _) => ⟨path, [.remove]⟩) ++
    now.filterMap fun (path, stamp) => changeOf? path (old.get? path) stamp

/-- The changes that lead from the files of a watch to others. -/
def changesTo (w : Watch) (t : FileTree) : List Change :=
  let look := fun t => stamps t w.settings.fileSuffix w.sourceDirectory
  changesBetween (look w.tree) (look t)

end PackageCycles.Watch
