import PackageCycles.Text.Base64
import PackageCycles.Text.Utf8
import PackageCycles.Yaml.Scalar
import PackageCycles.Yaml.Cursor

/-!
# Writing documents

A document is written in block style with four columns of indentation per level. A text is written
plain where it reads back as the same text, in double quotes if it would otherwise stand for a value
of another kind or holds characters that have to be escaped, in single quotes if only its signs are
in the way, and as a block if it has several lines. Bytes that are no text are written in base 64.
-/

namespace PackageCycles.Yaml

/-- A character that can be written as it is. -/
def isPrintable (c : Char) : Bool :=
  let n := c.toNat
  n = 0x0A || (0x20 ≤ n && n ≤ 0x7E) || (0xA0 ≤ n && n ≤ 0xFFFD && n ≠ 0xFEFF)

/-- The text looks like a number in base 60, such as a time of day. -/
def isSexagesimal (s : Text) : Bool :=
  let body := (Integer.sign s).2
  let isPart := fun (p : Text) =>
    match p with
    | [a] => isDigit a
    | [a, b] => isDigit a && a ≤ Text.byte '5' && isDigit b
    | _ => false
  match body.splitOn (Text.byte ':') with
  | first :: second :: more =>
    let isDigits := fun (p : Text) => p.all fun b => isDigit b || b = Text.byte '_'
    let parts := second :: more
    let last := parts.getLast?.getD []
    let whole := last.takeWhile (· ≠ Text.byte '.')
    let fraction := (last.dropWhile (· ≠ Text.byte '.')).drop 1
    (first.head?.map isDigit).getD false && isDigits first &&
      (parts.dropLast ++ [whole]).all isPart && isDigits fraction
  | _ => false

/-- The text can be written without quotes without standing for something else. -/
def readsAsText (s : Text) : Bool :=
  (resolve true s).tag = "!!str" && !isSexagesimal s && (looseBool? s).isNone

/-- The characters with the one before and the ones after each. -/
def inContext (before : Option Char) : List Char → List (Option Char × Char × List Char)
  | [] => []
  | c :: rest => (before, c, rest) :: inContext (some c) rest

/-- The end of the text or a blank follows. -/
def blankFollows (rest : List Char) : Bool := (rest.head?.map isBlank).getD true

/-- A sign in the text that would mean something without quotes. -/
def hasIndicator (cs : List Char) : Bool :=
  let s := String.ofList (cs.take 3)
  s = "---" || s = "..." || (inContext none cs).any fun (before, c, rest) =>
    match before with
    | none =>
      ['#', ',', '[', ']', '\x7b', '\x7d', '&', '*', '!', '|', '>', '\'', '"', '%', '@',
        '`'].contains c || (['?', ':', '-'].contains c && blankFollows rest)
    | some b =>
      (c = ':' && blankFollows rest) || (c = '#' && (isBlank b || isBreak b))

/-- Some neighbouring characters satisfy a condition. -/
def anyPair (p : Char → Char → Bool) (cs : List Char) : Bool :=
  (List.zip cs (cs.drop 1)).any fun (a, b) => p a b

/-- How a text can be written. -/
structure Allowed where
  /-- Without quotes. -/
  plain : Bool
  /-- In single quotes. -/
  single : Bool
  /-- As a block. -/
  block : Bool

/-- How a text can be written. -/
def allowed (cs : List Char) : Allowed :=
  if cs.isEmpty then ⟨true, true, false⟩
  else
    let isEnd := fun (c : Option Char) => (c.map fun x => x = ' ' || isBreak x).getD false
    let special := cs.any fun c => c ≠ '\t' && !isPrintable c
    let spaceBreak := anyPair (fun a b => a = ' ' && isBreak b) cs
    let breakSpace := anyPair (fun a b => isBreak a && b = ' ') cs
    let single := !breakSpace && !spaceBreak && !cs.contains '\t' && !special
    ⟨single && !isEnd cs.head? && !isEnd cs.getLast? && !cs.any isBreak && !hasIndicator cs,
      single,
      cs.getLast? ≠ some ' ' && !spaceBreak && !special⟩

/-- The upper case hexadecimal digits of `n`, `width` of them. -/
def upperHex (width n : Nat) : List Char :=
  let digits := (Nat.toDigits 16 n).map Char.toUpper
  List.replicate (width - digits.length) '0' ++ digits

/-- A character in double quotes. With `every` it is escaped whatever it is. -/
def doubleQuotedChar (every : Bool) (c : Char) : List Char :=
  if !every && isPrintable c && !isBreak c && c ≠ '"' && c ≠ '\\' then [c]
  else '\\' :: match c.toNat with
    | 0x00 => ['0']
    | 0x07 => ['a']
    | 0x08 => ['b']
    | 0x09 => ['t']
    | 0x0A => ['n']
    | 0x0B => ['v']
    | 0x0C => ['f']
    | 0x0D => ['r']
    | 0x1B => ['e']
    | 0x22 => ['"']
    | 0x5C => ['\\']
    | 0x85 => ['N']
    | 0xA0 => ['_']
    | 0x2028 => ['L']
    | 0x2029 => ['P']
    | n =>
      if n ≤ 0xFF then 'x' :: upperHex 2 n
      else if n ≤ 0xFFFF then 'u' :: upperHex 4 n
      else 'U' :: upperHex 8 n

/-- The text in double quotes. All characters of a text that starts with a byte order mark are
escaped. -/
def doubleQuoted (cs : List Char) : List Char :=
  let every := cs.head? = some (Char.ofNat 0xFEFF)
  '"' :: cs.flatMap (doubleQuotedChar every) ++ ['"']

/-- `n` columns of indentation. -/
def columns (n : Nat) : List Char := List.replicate n ' '

/-- The text in single quotes. A line after a break is indented. -/
def singleQuoted (indent : Nat) (cs : List Char) : List Char :=
  let write := fun ((before, c, _) : Option Char × Char × List Char) =>
    if isBreak c then [c]
    else
      (if (before.map isBreak).getD false then columns indent else []) ++
        (if c = '\'' then ['\'', '\''] else [c])
  '\'' :: (inContext none cs).flatMap write ++ ['\'']

/-- What the head of a block says about its first and last lines. -/
def blockHints (cs : List Char) : List Char :=
  let first := match cs.head? with
    | some c => if c = ' ' || isBreak c then ['4'] else []
    | none => []
  let last := match cs.reverse with
    | [] => ['-']
    | [c] => if isBreak c then ['+'] else ['-']
    | c :: d :: _ => if !isBreak c then ['-'] else if isBreak d then ['+'] else []
  first ++ last

/-- The text as a block, from the sign on. The newline behind the head is the first one of a text
that starts with a newline. -/
def blockWritten (indent : Nat) (cs : List Char) : List Char :=
  let write := fun ((before, c, _) : Option Char × Char × List Char) =>
    if isBreak c then [c]
    else
      (match before with
        | none => '\n' :: columns indent
        | some b => if isBreak b then columns indent else []) ++ [c]
  '|' :: blockHints cs ++ (inContext none cs).flatMap write

/-- The lines of `width` characters, each with a line break behind it. `fuel` bounds their
number. -/
def inLines (width : Nat) : (fuel : Nat) → List Char → List Char
  | 0, _ => []
  | fuel + 1, cs =>
    if cs.isEmpty then [] else cs.take width ++ '\n' :: inLines width fuel (cs.drop width)

/-- The number of characters on a line of base 64. -/
def binaryWidth : Nat := 70

/-- Bytes in base 64, cut into lines if they fill one. -/
def binaryChars (s : Text) : List Char :=
  let cs := (Text.Base64.encode s).toChars
  if cs.length < binaryWidth then cs else inLines binaryWidth cs.length cs

/-- A text as it is written at a place with the given indentation. -/
def writeText (indent : Nat) (s : Text) : Text :=
  if !s.isValid then
    let cs := binaryChars s
    ("!!binary " : Text) ++
      Text.ofChars (if cs.contains '\n' then blockWritten indent cs else cs)
  else
    let cs := s.toChars
    let can := allowed cs
    let quoted := if can.single then singleQuoted indent cs else doubleQuoted cs
    Text.ofChars <|
      if cs.contains '\n' then if can.block then blockWritten indent cs else doubleQuoted cs
      else if readsAsText s then if can.plain then cs else quoted
      else doubleQuoted cs

/-- The newline behind a text, unless it is a block that ends with one. -/
def newlineAfter (t : Text) : Text :=
  let cs := if t.isValid then t.toChars else binaryChars t
  let ends := (cs.getLast?.map isBreak).getD false
  if cs.contains '\n' && (allowed cs).block && ends then [] else "\n"

/-- What can be written. -/
inductive Written where
  | text (t : Text)
  | int (n : Int)
  | bool (b : Bool)
  | texts (items : List Text)
  | record (fields : List (Text × Written))

mutual

/-- The value of a field, from behind the colon to the end of its last line, at a place with the
given indentation. -/
def Written.writeValue (indent : Nat) : Written → Text
  | .text t => (" " : Text) ++ writeText (indent + 4) t ++ newlineAfter t
  | .int n => (" " : Text) ++ Text.ofInt n ++ "\n"
  | .bool b => (" " : Text) ++ Text.ofBool b ++ "\n"
  | .texts items =>
    let write := fun (item : Text) =>
      Text.ofChars (columns (indent + 4)) ++ ("- " : Text) ++ writeText (indent + 6) item ++
        newlineAfter item
    if items.isEmpty then " []\n" else ("\n" : Text) ++ items.flatMap write
  | .record fields => ("\n" : Text) ++ writeFields (indent + 4) fields

/-- The fields of a record on lines of their own. -/
def writeFields (indent : Nat) : List (Text × Written) → Text
  | [] => []
  | (name, value) :: rest =>
    Text.ofChars (columns indent) ++ name ++ (":" : Text) ++ value.writeValue indent ++
      writeFields indent rest

end

end PackageCycles.Yaml
