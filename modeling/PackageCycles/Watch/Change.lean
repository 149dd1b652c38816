import PackageCycles.Path

/-!
# Reported changes

The file system reports changes: a path with the kinds of change that were seen there. Only some of
them can change the graph (`Change.isRelevant`): those of files that are named like a compilation
unit, and those that bring or take away something that looks like a directory.
-/

namespace PackageCycles

/-- What can happen at a path. -/
inductive ChangeKind where
  | create
  | write
  | remove
  | rename
  /-- Permissions or other attributes have changed, but not the content. -/
  | attributes
  deriving DecidableEq

/-- The kinds in the order in which they are named. -/
def ChangeKind.all : List ChangeKind := [.create, .remove, .write, .rename, .attributes]

/-- The name of a kind. -/
def ChangeKind.name : ChangeKind → Text
  | .create => "CREATE"
  | .write => "WRITE"
  | .remove => "REMOVE"
  | .rename => "RENAME"
  | .attributes => "CHMOD"

/-- A change that is reported. -/
structure Change where
  /-- The path. -/
  path : Text
  /-- What happened there. -/
  kinds : List ChangeKind
  deriving DecidableEq

namespace Change

/-- The kinds of change as the log names them. -/
def kindNames (c : Change) : Text :=
  match ChangeKind.all.filter fun kind => c.kinds.contains kind with
  | [] => "[no events]"
  | kinds => Text.join "|" (kinds.map ChangeKind.name)

/-- Nothing but attributes has changed. -/
def isOfAttributes (c : Change) : Bool :=
  !c.kinds.isEmpty && c.kinds.all (· = .attributes)

/-- The entry may have come into being or gone. -/
def isOfExistence (c : Change) : Bool :=
  c.kinds.any fun kind => kind = .create || kind = .remove || kind = .rename

/-- What was read from the path before no longer counts. -/
def isOfContent (c : Change) : Bool :=
  c.kinds.any fun kind => kind = .remove || kind = .rename || kind = .write

/-- The change may change the graph of the compilation units with the given suffix. A directory has
no suffix, so any name without an extension is taken for one. -/
def isRelevant (suffix : Text) (c : Change) : Bool :=
  !c.isOfAttributes &&
    (suffix.isSuffixOf c.path || (Path.extension c.path = [] && c.isOfExistence))

end Change

end PackageCycles
