/-!
# Reading characters of a document

A cursor is a place in a document: what is left of it, the line and the column. Line breaks are
counted as they are passed; a carriage return with a line feed is one break. Scalars are read here
because they are stretches of characters: plain ones, quoted ones and blocks.
-/

namespace PackageCycles.Yaml

/-- A place in a document. -/
structure Cursor where
  /-- The characters from here on. -/
  rest : List Char
  /-- The number of line breaks before. -/
  line : Nat
  /-- The number of characters before on the same line. -/
  column : Nat
  /-- The number of characters before. -/
  index : Nat
  /-- The number of characters of the document. -/
  size : Nat

/-- A blank on a line. -/
def isBlank (c : Char) : Bool := c = ' ' || c = '\t'

/-- A character that ends a line. -/
def isBreak (c : Char) : Bool :=
  c = '\n' || c = '\r' || c.toNat = 0x85 || c.toNat = 0x2028 || c.toNat = 0x2029

/-- A blank, the end of the line or the end of the document stands here. -/
def atBlank : List Char → Bool
  | [] => true
  | c :: _ => isBlank c || isBreak c

/-- The end of the line or of the document stands here. -/
def atLineEnd : List Char → Bool
  | [] => true
  | c :: _ => isBreak c

/-- A line break as it counts in a scalar. -/
def breakChar (c : Char) : Char := if c.toNat = 0x2028 || c.toNat = 0x2029 then c else '\n'

/-- The text starts with a mark between documents. -/
def atDocumentMark (rest : List Char) : Bool :=
  match rest with
  | '-' :: '-' :: '-' :: more => atBlank more
  | '.' :: '.' :: '.' :: more => atBlank more
  | _ => false

namespace Cursor

/-- The cursor at the start of a document. -/
def start (text : List Char) : Cursor := ⟨text, 0, 0, 0, text.length⟩

/-- The number of characters from here on. -/
def left (c : Cursor) : Nat := c.size - c.index

/-- The character at a distance. -/
def peek? (c : Cursor) (n : Nat) : Option Char := c.rest[n]?

/-- The cursor some characters on, on the same line. -/
def skip (c : Cursor) (n : Nat) : Cursor :=
  { c with rest := c.rest.drop n, column := c.column + n, index := c.index + n }

/-- The cursor behind a line break, if there is one here. -/
def skipBreak (c : Cursor) : Cursor :=
  match c.rest with
  | '\r' :: '\n' :: rest =>
    { c with rest := rest, line := c.line + 1, column := 0, index := c.index + 2 }
  | b :: rest =>
    if isBreak b then { c with rest := rest, line := c.line + 1, column := 0, index := c.index + 1 }
    else c
  | [] => c

/-- The characters that satisfy a condition, and the cursor behind them. The condition must fail for
line breaks. -/
def takeWhile (c : Cursor) (p : Char → Bool) : List Char × Cursor :=
  let taken := c.rest.takeWhile p
  (taken, c.skip taken.length)

/-- The cursor at the end of the line. -/
def toLineEnd (c : Cursor) : Cursor := (c.takeWhile fun b => !isBreak b).2

end Cursor

/-! ## Gaps between words -/

/-- How the first line of a gap ends. -/
inductive LineEnd where
  /-- The gap is on one line. -/
  | open
  /-- By a break that has been escaped. -/
  | escaped
  /-- By a break. -/
  | broken (c : Char)

/-- Blanks and line breaks between two words of a scalar. -/
structure Gap where
  /-- The blanks on the first line. -/
  spaces : List Char
  /-- How that line ends. -/
  lineEnd : LineEnd
  /-- The breaks of the empty lines that follow. -/
  breaks : List Char

namespace Gap

/-- No gap. -/
def none : Gap := ⟨[], .open, []⟩

/-- The gap of an escaped line break. -/
def escaped : Gap := ⟨[], .escaped, []⟩

/-- The gap goes over the end of a line. -/
def crossesLine (g : Gap) : Bool :=
  match g.lineEnd with
  | .open => false
  | _ => true

/-- The gap as it counts in the scalar: blanks stay, a single line break becomes a space, and of
several line breaks the first is dropped. -/
def text (g : Gap) : List Char :=
  match g.lineEnd with
  | .open => g.spaces
  | .escaped => g.breaks
  | .broken c => if c = '\n' then (if g.breaks.isEmpty then [' '] else g.breaks) else c :: g.breaks

end Gap

/-- Reads on to the next word, over at most `fuel` characters. A tab that stands in for indentation
of at least `indent` columns is a fault. -/
def readGap (indent : Nat) : (fuel : Nat) → Gap → Cursor → Option (Gap × Cursor)
  | 0, g, c => some (g, c)
  | fuel + 1, g, c =>
    match c.rest with
    | [] => some (g, c)
    | b :: _ =>
      if isBlank b then
        if g.crossesLine then
          if b = '\t' && c.column < indent then none else readGap indent fuel g (c.skip 1)
        else readGap indent fuel { g with spaces := g.spaces ++ [b] } (c.skip 1)
      else if isBreak b then
        match g.lineEnd with
        | .open => readGap indent fuel ⟨[], .broken (breakChar b), []⟩ c.skipBreak
        | _ => readGap indent fuel { g with breaks := g.breaks ++ [breakChar b] } c.skipBreak
      else some (g, c)

/-! ## Plain scalars -/

/-- The word of a plain scalar at the start of a text. It ends before a blank, before a colon with a
blank behind it, and inside brackets also before their signs. -/
def plainWord (inFlow : Bool) : List Char → List Char
  | [] => []
  | c :: rest =>
    if isBlank c || isBreak c then []
    else if c = ':' && atBlank rest then []
    else if inFlow && [',', '?', '[', ']', '\x7b', '\x7d'].contains c then []
    else c :: plainWord inFlow rest

/-- The words of a plain scalar from behind a gap, `fuel` of them at most. The last component says
whether line breaks were passed behind the last word. -/
def plainWords (inFlow : Bool) (indent : Nat) :
    (fuel : Nat) → Gap → Cursor → Option (List Char × Cursor × Bool)
  | 0, g, c => some ([], c, g.crossesLine)
  | fuel + 1, g, c =>
    let stop := (c.column = 0 && atDocumentMark c.rest) || c.peek? 0 = some '#'
    if stop then some ([], c, g.crossesLine)
    else
      let word := plainWord inFlow c.rest
      let c := c.skip word.length
      let (text, g) := if word.isEmpty then ([], g) else (g.text ++ word, Gap.none)
      match c.rest with
      | [] => some (text, c, g.crossesLine)
      | b :: _ =>
        if isBlank b || isBreak b then do
          let (g, c) ← readGap indent (c.left + 1) g c
          if !inFlow && c.column < indent then return (text, c, g.crossesLine)
          let (more, c, newLine) ← plainWords inFlow indent fuel g c
          return (text ++ more, c, newLine)
        else some (text, c, g.crossesLine)

/-! ## Quoted scalars -/

/-- The value of a hexadecimal digit. -/
def hexValue? (c : Char) : Option Nat :=
  if '0' ≤ c && c ≤ '9' then some (c.toNat - 48)
  else if 'a' ≤ c && c ≤ 'f' then some (c.toNat - 87)
  else if 'A' ≤ c && c ≤ 'F' then some (c.toNat - 55)
  else none

/-- The character with a number of `count` hexadecimal digits. -/
def hexChar? (count : Nat) (rest : List Char) : Option Char := do
  let digits ← (rest.take count).mapM hexValue?
  guard (digits.length = count)
  let n := digits.foldl (fun n d => n * 16 + d) 0
  guard n.isValidChar
  return Char.ofNat n

/-- What an escape sequence in double quotes stands for, read from behind the backslash, and the
number of its characters there. -/
def escape? : List Char → Option (Char × Nat)
  | [] => none
  | c :: rest =>
    match c with
    | '0' => some (Char.ofNat 0, 1)
    | 'a' => some (Char.ofNat 7, 1)
    | 'b' => some (Char.ofNat 8, 1)
    | 't' => some ('\t', 1)
    | '\t' => some ('\t', 1)
    | 'n' => some ('\n', 1)
    | 'v' => some (Char.ofNat 11, 1)
    | 'f' => some (Char.ofNat 12, 1)
    | 'r' => some ('\r', 1)
    | 'e' => some (Char.ofNat 27, 1)
    | ' ' => some (' ', 1)
    | '"' => some ('"', 1)
    | '\'' => some ('\'', 1)
    | '\\' => some ('\\', 1)
    | 'N' => some (Char.ofNat 0x85, 1)
    | '_' => some (Char.ofNat 0xA0, 1)
    | 'L' => some (Char.ofNat 0x2028, 1)
    | 'P' => some (Char.ofNat 0x2029, 1)
    | 'x' => (hexChar? 2 rest).map (·, 3)
    | 'u' => (hexChar? 4 rest).map (·, 5)
    | 'U' => (hexChar? 8 rest).map (·, 9)
    | _ => none

/-- How a word in quotes ends. -/
inductive WordEnd where
  /-- Before the closing quote. -/
  | quote
  /-- Before a blank or the end of the document. -/
  | blank
  /-- Behind an escaped line break. -/
  | escapedBreak

/-- A word in quotes. -/
structure QuotedWord where
  /-- What it stands for. -/
  text : List Char
  /-- The number of characters with which it is written. -/
  width : Nat
  /-- How it ends. -/
  ending : WordEnd

/-- The word with a character in front that is written with some characters. -/
def QuotedWord.cons (c : Char) (width : Nat) (w : QuotedWord) : QuotedWord :=
  { w with text := c :: w.text, width := width + w.width }

/-- The word in single quotes at the start of a text. -/
def singleWord : List Char → QuotedWord
  | [] => ⟨[], 0, .blank⟩
  | '\'' :: '\'' :: rest => (singleWord rest).cons '\'' 2
  | c :: rest =>
    if c = '\'' then ⟨[], 0, .quote⟩
    else if isBlank c || isBreak c then ⟨[], 0, .blank⟩
    else (singleWord rest).cons c 1

/-- The word in double quotes at the start of a text, of at most `fuel` characters. -/
def doubleWord : (fuel : Nat) → List Char → Option QuotedWord
  | 0, _ => some ⟨[], 0, .blank⟩
  | fuel + 1, cs =>
    match cs with
    | [] => some ⟨[], 0, .blank⟩
    | '\\' :: rest =>
      if (rest.head?.map isBreak).getD false then some ⟨[], 1, .escapedBreak⟩
      else do
        let (c, width) ← escape? rest
        return (← doubleWord fuel (rest.drop width)).cons c (width + 1)
    | c :: rest =>
      if c = '"' then some ⟨[], 0, .quote⟩
      else if isBlank c || isBreak c then some ⟨[], 0, .blank⟩
      else do return (← doubleWord fuel rest).cons c 1

/-- The words of a quoted scalar from behind its opening quote, `fuel` of them at most, and the
cursor behind the closing quote. -/
def quotedWords (single : Bool) : (fuel : Nat) → Cursor → Option (List Char × Cursor)
  | 0, _ => none
  | fuel + 1, c =>
    if (c.column = 0 && atDocumentMark c.rest) || c.rest.isEmpty then none
    else do
      let word ← if single then some (singleWord c.rest) else doubleWord (c.left + 1) c.rest
      let c := c.skip word.width
      match word.ending with
      | .quote => return (word.text, c.skip 1)
      | .blank =>
        let (g, c) ← readGap 0 (c.left + 1) Gap.none c
        let (more, c) ← quotedWords single fuel c
        return (word.text ++ g.text ++ more, c)
      | .escapedBreak =>
        let c := c.skipBreak
        let (g, c) ← readGap 0 (c.left + 1) Gap.escaped c
        let (more, c) ← quotedWords single fuel c
        return (word.text ++ g.text ++ more, c)

/-! ## Blocks -/

/-- What becomes of the line breaks at the end of a block. -/
inductive Chomping where
  /-- All are dropped. -/
  | strip
  /-- The first one stays. -/
  | clip
  /-- All stay. -/
  | keep
  deriving DecidableEq

/-- The head of a block: chomping and a number of columns, in either order. -/
def blockHead (c : Cursor) : Option (Chomping × Nat × Cursor) :=
  let chomping := fun (c : Cursor) =>
    match c.peek? 0 with
    | some '+' => (Chomping.keep, c.skip 1)
    | some '-' => (Chomping.strip, c.skip 1)
    | _ => (Chomping.clip, c)
  let columns := fun (c : Cursor) =>
    match c.peek? 0 with
    | some d => if '0' ≤ d && d ≤ '9' then some (d.toNat - 48, c.skip 1) else none
    | none => none
  let ofColumns := fun (n : Nat) => if n = 0 then Option.none else some n
  match columns c with
  | some (n, c) => do
    let n ← ofColumns n
    let (kind, c) := chomping c
    return (kind, n, c)
  | none =>
    let (kind, after) := chomping c
    if after.index = c.index then some (kind, 0, c)
    else match columns after with
      | some (n, c) => do
        let n ← ofColumns n
        return (kind, n, c)
      | none => some (kind, 0, after)

/-- Passes over empty lines and the indentation of the next one. With an `indent` of zero the
indentation is found out: the greatest width seen is given back. -/
def blockGap (indent : Nat) :
    (fuel : Nat) → Nat → List Char → Cursor → Option (Nat × List Char × Cursor)
  | 0, width, breaks, c => some (width, breaks, c)
  | fuel + 1, width, breaks, c =>
    let spaces := (c.rest.takeWhile (· = ' ')).length
    let c := c.skip (if indent = 0 then spaces else min spaces (indent - c.column))
    let width := max width c.column
    match c.rest with
    | [] => some (width, breaks, c)
    | b :: _ =>
      if b = '\t' && (indent = 0 || c.column < indent) then none
      else if isBreak b then blockGap indent fuel width (breaks ++ [breakChar b]) c.skipBreak
      else some (width, breaks, c)

/-- What has been read of a block. -/
structure Block where
  /-- The pieces of the text so far, the latest first. -/
  pieces : List (List Char)
  /-- The break at the end of the last line. -/
  leadingBreak : List Char
  /-- The breaks of the empty lines after it. -/
  breaks : List Char
  /-- The last line starts with a blank. -/
  indented : Bool

/-- The text of a block without the breaks at its end. -/
def Block.text (b : Block) : List Char := b.pieces.reverse.flatten

/-- Reads the lines of a block, `fuel` of them at most. -/
def blockLines (folded : Bool) (indent : Nat) :
    (fuel : Nat) → Block → Cursor → Option (Block × Cursor)
  | 0, b, c => some (b, c)
  | fuel + 1, b, c =>
    if c.column ≠ indent || c.rest.isEmpty then some (b, c)
    else do
      let startsBlank := (c.rest.head?.map isBlank).getD false
      let joined :=
        if folded && !b.indented && !startsBlank && b.leadingBreak = ['\n'] then
          if b.breaks.isEmpty then [' '] else []
        else b.leadingBreak
      let (content, c) := c.takeWhile fun x => !isBreak x
      let leadingBreak := match c.rest with
        | [] => []
        | x :: _ => [breakChar x]
      let (_, breaks, c) ← blockGap indent (c.left + 1) 0 [] c.skipBreak
      blockLines folded indent fuel
        ⟨(joined ++ b.breaks ++ content) :: b.pieces, leadingBreak, breaks, startsBlank⟩ c

/-- The text of a block from behind its sign, and the cursor behind it. `parent` is the indentation
of what the block stands in, if there is any. -/
def blockScalar (folded : Bool) (parent : Option Nat) (c : Cursor) :
    Option (List Char × Cursor) := do
  let (chomping, columns, c) ← blockHead c
  let c := (c.takeWhile isBlank).2
  let c := if c.peek? 0 = some '#' then c.toLineEnd else c
  guard (atLineEnd c.rest)
  let c := c.skipBreak
  let given := if columns = 0 then 0 else parent.getD 0 + columns
  let (width, breaks, c) ← blockGap given (c.left + 1) 0 [] c
  let least := match parent with
    | some n => n + 1
    | none => 1
  let indent := if given = 0 then max width least else given
  let (b, c) ← blockLines folded indent (c.left + 1) ⟨[], [], breaks, false⟩ c
  let text := match chomping with
    | .strip => b.text
    | .clip => b.text ++ b.leadingBreak
    | .keep => b.text ++ b.leadingBreak ++ b.breaks
  return (text, c)

end PackageCycles.Yaml
