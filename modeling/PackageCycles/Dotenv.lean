import PackageCycles.Environment
import PackageCycles.FileTree.Basic
import PackageCycles.Text.Blank
import PackageCycles.Text.Quoted

/-!
# Files of environment variables

A file of environment variables has a statement `NAME=value` on each line, with `export` allowed in
front and a colon allowed for the equals sign. A value may stand in quotes and then go over several
lines. Double quotes and values without quotes refer to variables that were set before in the same
file. A file never changes a variable that is already set.
-/

namespace PackageCycles.Dotenv

/-- Why a file cannot be read. -/
inductive Fault where
  /-- A character that cannot stand in a name, and the rest of the file from the statement on. -/
  | unexpected (c : Char) (statement : Text)
  /-- A quote that is not closed, with the rest of its line. -/
  | unterminated (line : Text)
  /-- A statement without anything in it. -/
  | empty
  deriving DecidableEq

/-- The wording of a fault. -/
def Fault.message : Fault → Text
  | .unexpected c statement =>
    ("unexpected character " : Text) ++ Text.quoted (Text.ofChars [c]) ++ " in variable name near " ++
      statement.quoted
  | .unterminated line => ("unterminated quoted value " : Text) ++ line
  | .empty => "zero length string"

/-- A blank within a line. -/
def isSpace (c : Char) : Bool :=
  c = '\t' || c = ' ' || c = '\r' || c.toNat = 11 || c.toNat = 12 || c.toNat = 0x85 ||
    c.toNat = 0xA0

/-- The number of bytes that the blanks at the start of a text take, looking at `fuel` of them. -/
def spaceLength : (fuel : Nat) → Text → Nat
  | 0, _ => 0
  | fuel + 1, s =>
    match s.uncons with
    | some (.char c, rest) =>
      if isSpace c then (s.length - rest.length) + spaceLength fuel rest else 0
    | _ => 0

/-- The text without the blanks at its start. -/
def trimSpace (s : Text) : Text := s.drop (spaceLength s.length s)

/-- The text from the next statement on, `fuel` comments being passed over at most. -/
def nextStatement : (fuel : Nat) → Text → Text
  | 0, _ => []
  | fuel + 1, s =>
    match s.trimLeft with
    | [] => []
    | b :: rest =>
      if b = Text.byte '#' then nextStatement fuel (rest.dropWhile (· ≠ Text.byte '\n'))
      else b :: rest

/-- The statement without the word `export` at its start. -/
def afterExport (s : Text) : Text :=
  let word : Text := "export"
  let rest := s.drop word.length
  if word.isPrefixOf s && spaceLength 1 rest ≠ 0 then trimSpace rest else s

/-- What ends a name, if it is ended before the end of the file: the bytes before the sign and those
behind it. Each byte counts as the character with its number. -/
def nameEnd (statement : Text) : Text → Text → Except Fault (Option (Text × Text))
  | _, [] => .ok none
  | before, b :: rest =>
    let c := Char.ofNat b.toNat
    if c = '=' || c = ':' then .ok (some (before, rest))
    else if isSpace c || c = '_' || c = '.' || (Unicode.Category.ofChar c).major = 'L' ||
        (Unicode.Category.ofChar c).major = 'N' then
      nameEnd statement (before ++ [b]) rest
    else .error (.unexpected c statement)

/-- The name at the start of a statement and what follows its sign. A file that ends before the sign
has the empty name there. -/
def readName (s : Text) : Except Fault (Text × Text) := do
  let s := afterExport (trimSpace s)
  match ← nameEnd s [] s with
  | some (name, rest) => return (name.trimRight, trimSpace rest)
  | none => if s = [] then throw .empty else return ([], s)

/-- A byte of the name of a variable that is referred to. -/
def isReferenceByte (b : UInt8) : Bool :=
  (Text.byte 'A' ≤ b && b ≤ Text.byte 'Z') || (Text.byte '0' ≤ b && b ≤ Text.byte '9') ||
    b = Text.byte '_'

/-- The text without its first byte if that is the one given. -/
def dropByte (c : Char) (s : Text) : Text :=
  match s with
  | b :: rest => if b = Text.byte c then rest else s
  | [] => []

/-- What a reference consists of, read from behind the dollar sign: the name, and what follows. -/
def reference (s : Text) : Text × Text :=
  let s := dropByte '\x7b' (dropByte '(' s)
  (s.takeWhile isReferenceByte, dropByte '\x7d' (s.dropWhile isReferenceByte))

/-- The value of the latest assignment to a name. -/
def valueOf (vars : List (Text × Text)) (name : Text) : Text :=
  (vars.reverse.lookup name).getD []

/-- The text with its references replaced by the values of the variables. A dollar sign behind a
backslash stands for itself, as does one without a name. At most `fuel` bytes are looked at. -/
def expand (vars : List (Text × Text)) : (fuel : Nat) → Text → Text
  | 0, s => s
  | fuel + 1, s =>
    match s with
    | [] => []
    | b :: rest =>
      let escaped := b = Text.byte '\\' && rest.head? = some (Text.byte '$')
      if escaped || b = Text.byte '$' then
        let start := if escaped then rest.drop 1 else rest
        let (name, after) := reference start
        let matched := start.take (start.length - after.length)
        if escaped then Text.byte '$' :: matched ++ expand vars fuel after
        else if name = [] then Text.byte '$' :: matched ++ expand vars fuel after
        else valueOf vars name ++ expand vars fuel after
      else b :: expand vars fuel rest

/-- The text with `\n` and `\r` replaced by the characters that they stand for. -/
def lineEscapes : (fuel : Nat) → Text → Text
  | 0, s => s
  | fuel + 1, s =>
    match s with
    | a :: b :: rest =>
      if a ≠ Text.byte '\\' then a :: lineEscapes fuel (b :: rest)
      else if b = Text.byte 'n' then Text.byte '\n' :: lineEscapes fuel rest
      else if b = Text.byte 'r' then Text.byte '\r' :: lineEscapes fuel rest
      else if b = Text.byte '\n' then a :: lineEscapes fuel (b :: rest)
      else a :: b :: lineEscapes fuel rest
    | other => other

/-- The text without the backslashes in front of other characters than the dollar sign. -/
def dropBackslashes : (fuel : Nat) → Text → Text
  | 0, s => s
  | fuel + 1, s =>
    match s with
    | a :: b :: rest =>
      if a = Text.byte '\\' ∧ b ≠ Text.byte '$' then b :: dropBackslashes fuel rest
      else a :: dropBackslashes fuel (b :: rest)
    | other => other

/-- The characters before the last `#` that stands behind a blank, if there is one. -/
def beforeLastMark? : List Char → Option (List Char)
  | a :: b :: rest =>
    match beforeLastMark? (b :: rest) with
    | some shown => some (a :: shown)
    | none => if isSpace a && b = '#' then some [a] else none
  | _ => none

/-- The characters of an unquoted value before its comment, which starts at the last `#` behind a
blank. -/
def beforeComment (line : List Char) : List Char := (beforeLastMark? line).getD line

/-- The bytes up to the closing quote, and those behind it. A quote behind a backslash does not
close. -/
def untilQuote (quote previous : UInt8) : Text → Option (Text × Text)
  | [] => none
  | b :: rest =>
    if b = quote ∧ previous ≠ Text.byte '\\' then some ([], rest)
    else (untilQuote quote b rest).map fun (inside, after) => (b :: inside, after)

/-- The text without the given byte at either end. -/
def strip (b : UInt8) (s : Text) : Text :=
  ((s.reverse.dropWhile (· = b)).reverse).dropWhile (· = b)

/-- The value at the start of a text and what follows it. -/
def readValue (vars : List (Text × Text)) (s : Text) : Except Fault (Text × Text) :=
  let unquoted : Text × Text :=
    let isLineEnd := fun (b : UInt8) => b = Text.byte '\n' || b = Text.byte '\r'
    let line := Text.toChars (s.takeWhile fun b => !isLineEnd b)
    let shown := beforeComment line
    let trimmed := ((shown.reverse.dropWhile isSpace).reverse).dropWhile isSpace
    let value := Text.ofChars trimmed
    (expand vars value.length value, s.dropWhile fun b => !isLineEnd b)
  match s with
  | [] => .ok unquoted
  | q :: rest =>
    if q = Text.byte '"' || q = Text.byte '\'' then
      match untilQuote q q rest with
      | none => .error (.unterminated (s.takeWhile (· ≠ Text.byte '\n')))
      | some (inside, after) =>
        let raw := strip q inside
        if q = Text.byte '"' then
          let escaped := lineEscapes raw.length raw
          let plain := dropBackslashes escaped.length escaped
          .ok (expand vars plain.length plain, after)
        else .ok (raw, after)
    else .ok unquoted

/-- Reads statements, `fuel` of them at most, behind those that have been read. -/
def statements : (fuel : Nat) → List (Text × Text) → Text → Except Fault (List (Text × Text))
  | 0, vars, _ => .ok vars
  | fuel + 1, vars, s =>
    match nextStatement (s.length + 1) s with
    | [] => .ok vars
    | statement => do
      let (name, rest) ← readName statement
      let (value, rest) ← readValue vars rest
      statements fuel (vars ++ [(name, value)]) rest

/-- The text with each carriage return before a newline left out. -/
def unixLines : Text → Text
  | [] => []
  | [b] => [b]
  | a :: b :: rest =>
    if a = Text.byte '\r' ∧ b = Text.byte '\n' then unixLines (b :: rest)
    else a :: unixLines (b :: rest)

/-- The assignments of a file in their order. -/
def parse (content : Text) : Except Fault (List (Text × Text)) :=
  let s := unixLines content
  statements (s.length + 1) [] s

/-- Why variables could not be loaded. -/
inductive LoadError where
  /-- The file could not be opened or read. -/
  | unreadable (path : Text) (cause : FileError)
  /-- Its content is malformed. -/
  | malformed (path : Text) (cause : Fault)

/-- The wording of the error. -/
def LoadError.message : LoadError → Text
  | .unreadable path cause => ("failed to load " : Text) ++ path ++ ": " ++ cause.message
  | .malformed path cause => ("failed to load " : Text) ++ path ++ ": " ++ cause.message

/-- The file of variables that is loaded if no other one is named. -/
def defaultPath : Text := ".env"

/-- The environment with the variables of an assignment list added. The last assignment to a name
counts. -/
def addTo (env : Environment) (assignments : List (Text × Text)) : Environment :=
  assignments.foldl (fun e (name, _) => e.setNew name (valueOf assignments name)) env

/-- The environment with the variables of files added, those of the first file first. A file that
does not exist is passed over. An error leaves the environment as it was before that file. -/
def load (t : FileTree) (env : Environment) : List Text → Environment × Option LoadError
  | [] => (env, none)
  | path :: rest =>
    match t.readContent path with
    | .error cause =>
      if cause.fault = .notFound then load t env rest else (env, some (.unreadable path cause))
    | .ok content =>
      match parse content with
      | .error cause => (env, some (.malformed path cause))
      | .ok assignments => load t (addTo env assignments) rest

end PackageCycles.Dotenv
