import PackageCycles.Ordered
import PackageCycles.Graph.Basic
import PackageCycles.Text.Blank

/-!
# Import statements

The dependencies of a compilation unit are read off its import statements, one per line:
`import a.b.C;` depends on the package `a.b`. Static imports, imports of a whole package and imports
without a package name are passed over, and so is every line that is no import. What stands behind
the first semicolon does not matter.
-/

namespace PackageCycles.Import

/-- What follows a keyword that opens a line and is followed by a space or a tab, without blanks at
either end. -/
def afterKeyword? (keyword line : Text) : Option Text :=
  if keyword.isPrefixOf line then
    match line.drop keyword.length with
    | [] => none
    | b :: rest =>
      if b = Text.byte ' ' || b = Text.byte '\t' then some (Text.trim (b :: rest)) else none
  else none

/-- The statement up to its first semicolon; without one it is left as it is. -/
def beforeSemicolon (statement : Text) : Text :=
  if statement.contains (Text.byte ';') then
    Text.trim (statement.takeWhile (· ≠ Text.byte ';'))
  else statement

/-- The package that an import statement, trimmed of blanks, depends on. -/
def parseLine? (line : Text) : Option Package := do
  let statement ← afterKeyword? "import" line
  let imported := beforeSemicolon statement
  if (afterKeyword? "static" imported).isSome || (Text.ofString ".*").isSuffixOf imported then none
  else
    let package ← imported.beforeLast? (Text.byte '.')
    if package.isEmpty then none else some package

/-- The packages that the import statements of a compilation unit depend on, in increasing order. -/
def parse (content : Text) : List Package :=
  Ordered.ofList ((content.splitOn (Text.byte '\n')).filterMap fun line => parseLine? line.trim)

end PackageCycles.Import
