import PackageCycles.Yaml.Cursor
import PackageCycles.Yaml.Source

/-!
# Tokens of a document

The structure of a document is read from tokens, and these are cut from the text as they are needed.
Indentation shows in tokens that open and close blocks, as brackets do for the flow style. A key
without a `?` in front is only known to be one when its colon is met; the tokens for it are then put
in where it started. Such a key has to stand on one line, with its colon at most 1024 characters
behind its start.

A token is looked at when two more have been cut behind it and it can no longer turn out to be the
start of a key (`Lexer.lookAhead`). What is malformed further on does not matter.
-/

namespace PackageCycles.Yaml

/-- How a scalar is written. -/
inductive ScalarStyle where
  | plain
  | quoted
  | block
  deriving DecidableEq

/-- The tokens. -/
inductive Token where
  | version (major minor : Nat)
  | tagHandle (handle : List Char) (expansion : Text)
  | documentStart
  | documentEnd
  | streamEnd
  | blockSequence
  | blockMapping
  | blockEnd
  | flowSequence
  | flowSequenceEnd
  | flowMapping
  | flowMappingEnd
  | entry
  | comma
  | key
  | value
  | alias (name : List Char)
  | anchor (name : List Char)
  | tag (handle : List Char) (suffix : Text)
  | scalar (style : ScalarStyle) (text : List Char)
  deriving DecidableEq

/-- A token with the number of the line on which it starts, counted from one. -/
structure Located where
  /-- The token. -/
  token : Token
  /-- The line. -/
  line : Nat

/-- A place where a key without a `?` may have started. -/
structure PossibleKey where
  /-- There must be a key, as the place is at the indentation of a mapping. -/
  required : Bool
  /-- Its start. -/
  start : Cursor

/-- What is known about keys at one level of brackets. -/
structure KeySlot where
  /-- The number of tokens before the place where a key was possible last, or else before the
  bracket. -/
  place : Nat
  /-- The possible key, if there is one. -/
  key : Option PossibleKey

/-- The state of cutting a document into tokens. -/
structure Lexer where
  /-- The place in the document. -/
  cursor : Cursor
  /-- The text does not go on behind what can be read of it. -/
  whole : Bool
  /-- Up to where the first character of each line is passed over. This is so in the first piece of
  a text that starts with U+FEFF behind the mark of its encoding. -/
  markedUpTo : Nat
  /-- The number of tokens that have been dealt with. -/
  taken : Nat
  /-- The tokens behind those. -/
  pending : Array Located
  /-- The indentation of the block in hand, if there is one. -/
  indent : Option Nat
  /-- The indentations of the blocks around it. -/
  outer : List (Option Nat)
  /-- A key may start here. -/
  keyAllowed : Bool
  /-- The levels of brackets, the innermost first, and what is outside all brackets. -/
  slots : List KeySlot
  /-- The numbers of tokens before the possible keys. -/
  awaited : List Nat

namespace Lexer

/-- The state at the start of a document. -/
def start (s : Source) : Lexer :=
  let marked := s.chars.head? = some (Char.ofNat 0xFEFF)
  ⟨Cursor.start s.chars, s.whole, if marked then s.firstPiece else 0, 0, #[], none, [], true,
    [⟨0, none⟩], []⟩

/-- The state lies inside brackets. -/
def inFlow (l : Lexer) : Bool := !(l.slots.drop 1).isEmpty

/-- The number of tokens so far. -/
def size (l : Lexer) : Nat := l.taken + l.pending.size

/-- The state with a token added that starts at a place. -/
def add (l : Lexer) (at' : Cursor) (token : Token) : Lexer :=
  { l with pending := l.pending.push ⟨token, at'.line + 1⟩ }

/-- The state with a token put in after a number of tokens, or at the end if those behind have
already been dealt with. -/
def insertAt (l : Lexer) (place : Nat) (at' : Cursor) (token : Token) : Lexer :=
  if place < l.taken then l.add at' token
  else { l with
    pending := l.pending.insertIdxIfInBounds (place - l.taken) ⟨token, at'.line + 1⟩ }

/-- The state at another place. -/
def moveTo (l : Lexer) (c : Cursor) : Lexer := { l with cursor := c }

/-- The state some characters on. -/
def skip (l : Lexer) (n : Nat) : Lexer := l.moveTo (l.cursor.skip n)

/-- The state with `keyAllowed` set. -/
def allowKey (l : Lexer) (allowed : Bool) : Lexer := { l with keyAllowed := allowed }

/-- The greatest number of blocks or brackets inside each other. -/
def maxDepth : Nat := 10000

/-- Opens a block at a column that lies further right, with its token put in at a place. -/
def openBlock (l : Lexer) (column place : Nat) (at' : Cursor) (token : Token) : Option Lexer :=
  let deeper := match l.indent with
    | some n => n < column
    | none => true
  if l.inFlow || !deeper then some l
  else if maxDepth ≤ l.outer.length then none
  else some { l.insertAt place at' token with indent := some column, outer := l.indent :: l.outer }

/-- Closes the blocks that lie further right than a column, `fuel` of them at most; without a column
all blocks. -/
def closeBlocks (column : Option Nat) : (fuel : Nat) → Lexer → Lexer
  | 0, l => l
  | fuel + 1, l =>
    if l.inFlow then l
    else match l.indent, l.outer with
      | some n, outer :: rest =>
        let close : Bool := match column with
          | some column => column < n
          | none => true
        if close then
          closeBlocks column fuel { l.add l.cursor .blockEnd with indent := outer, outer := rest }
        else l
      | _, _ => l

/-- Closes the blocks that lie further right than a column, or all. -/
def closeTo (l : Lexer) (column : Option Nat) : Lexer := l.closeBlocks column (l.outer.length + 1)

/-- The state with the innermost slot changed. -/
def setSlot (l : Lexer) (slot : KeySlot) : Lexer := { l with slots := slot :: l.slots.drop 1 }

/-- Gives up the possible key at this level. It is a fault if there had to be one. -/
def dropKey (l : Lexer) : Option Lexer :=
  match l.slots with
  | ⟨place, some key⟩ :: _ =>
    if key.required then none
    else some { l.setSlot ⟨place, none⟩ with awaited := l.awaited.filter (· ≠ place) }
  | _ => some l

/-- Notes that a key may start here, if keys are allowed. -/
def noteKey (l : Lexer) : Option Lexer := do
  if !l.keyAllowed then return l
  let required := !l.inFlow && l.indent = some l.cursor.column
  let l ← l.dropKey
  let place := l.size
  return { l.setSlot ⟨place, some ⟨required, l.cursor⟩⟩ with awaited := place :: l.awaited }

/-- A colon can still follow the possible key here. It is a fault if there had to be a key and no
colon can follow. -/
def isValidKey (l : Lexer) (key : PossibleKey) : Option Bool :=
  if key.start.line < l.cursor.line || key.start.index + 1024 < l.cursor.index then
    if key.required then none else some false
  else some true

/-! ## One token -/

/-- A character of an anchor or a tag handle. -/
def isNameChar (c : Char) : Bool := c.isAlphanum || c = '_' || c = '-'

/-- An alias or anchor, from its sign on. -/
def anchor (l : Lexer) (make : List Char → Token) : Option Lexer := do
  let l ← l.noteKey
  let (name, c) := (l.cursor.skip 1).takeWhile isNameChar
  let ended := atBlank c.rest ||
    (c.rest.head?.map fun x => ['?', ':', ',', ']', '\x7d', '%', '@', '`'].contains x).getD false
  guard (!name.isEmpty && ended)
  return ((l.add l.cursor (make name)).moveTo c).allowKey false

/-- A character of the suffix of a tag. -/
def isTagChar (c : Char) : Bool :=
  isNameChar c || [';', '/', '?', ':', '@', '&', '=', '+', '$', ',', '.', '!', '~', '*', '\'', '(',
    ')', '[', ']', '%'].contains c

/-- An escaped byte, a percent sign with two hexadecimal digits, and what follows it. -/
def escapedByte? : List Char → Option (UInt8 × List Char)
  | '%' :: a :: b :: rest => do
    return (UInt8.ofNat ((← hexValue? a) * 16 + (← hexValue? b)), rest)
  | _ => none

/-- The given number of escaped bytes that continue a UTF-8 sequence, and what follows them. -/
def escapedTail : Nat → List Char → Option (Text × List Char)
  | 0, cs => some ([], cs)
  | n + 1, cs => do
    let (b, more) ← escapedByte? cs
    guard (Text.isTail b)
    let (tail, more) ← escapedTail n more
    return (b :: tail, more)

/-- The suffix of a tag with its escape sequences read. What is escaped has to be UTF-8 as far as
the numbers of bytes go. -/
def unescapeTag : (fuel : Nat) → List Char → Option Text
  | 0, _ => some []
  | fuel + 1, cs =>
    match cs with
    | [] => some []
    | '%' :: _ => do
      let (lead, more) ← escapedByte? cs
      guard (lead < 0x80 || (0xC0 ≤ lead && lead < 0xF8))
      let (tail, more) ← escapedTail (utf8Width lead - 1) more
      return lead :: tail ++ (← unescapeTag fuel more)
    | c :: rest => do return Text.ofChars [c] ++ (← unescapeTag fuel rest)

/-- A tag, from its sign on. -/
def tag (l : Lexer) : Option Lexer := do
  let l ← l.noteKey
  let c := l.cursor
  let (handle, suffix, after) ←
    if c.peek? 1 = some '<' then do
      let (suffix, after) := (c.skip 2).takeWhile isTagChar
      guard (!suffix.isEmpty && after.peek? 0 = some '>')
      some ([], suffix, after.skip 1)
    else
      let (name, afterName) := (c.skip 1).takeWhile isNameChar
      if afterName.peek? 0 = some '!' then
        let (suffix, after) := (afterName.skip 1).takeWhile isTagChar
        if suffix.isEmpty then none else some ('!' :: name ++ ['!'], suffix, after)
      else
        let (rest, after) := afterName.takeWhile isTagChar
        let suffix := name ++ rest
        if suffix.isEmpty then some ([], ['!'], after) else some (['!'], suffix, after)
  guard (atBlank after.rest)
  let suffix ← unescapeTag (suffix.length + 1) suffix
  return ((l.add c (.tag handle suffix)).moveTo after).allowKey false

/-- A scalar in quotes, from the opening one on. -/
def quoted (l : Lexer) (single : Bool) : Option Lexer := do
  let l ← l.noteKey
  let (text, c) ← quotedWords single (l.cursor.left + 1) (l.cursor.skip 1)
  return ((l.add l.cursor (.scalar .quoted text)).moveTo c).allowKey false

/-- Passes over a comment on the line of the token that has just been added, with at most 511 blanks
before it. -/
def lineComment (l : Lexer) : Lexer :=
  let (blanks, c) := l.cursor.takeWhile isBlank
  if blanks.length < 512 && c.peek? 0 = some '#' then l.moveTo c.toLineEnd else l

/-- A plain scalar. -/
def plain (l : Lexer) : Option Lexer := do
  let l ← l.noteKey
  let least := match l.indent with
    | some n => n + 1
    | none => 0
  let (text, c, newLine) ← plainWords l.inFlow least (l.cursor.left + 1) Gap.none l.cursor
  let l := ((l.add l.cursor (.scalar .plain text)).moveTo c).allowKey newLine
  return if newLine then l else l.lineComment

/-- A block scalar, from its sign on. -/
def blockText (l : Lexer) (folded : Bool) : Option Lexer := do
  let l ← l.dropKey
  let (text, c) ← blockScalar folded l.indent (l.cursor.skip 1)
  return ((l.add l.cursor (.scalar .block text)).moveTo c).allowKey true

/-- A decimal number of at most two digits. -/
def versionNumber (c : Cursor) : Option (Nat × Cursor) :=
  let (digits, after) := c.takeWhile fun x => '0' ≤ x && x ≤ '9'
  if digits.isEmpty || 2 < digits.length then none
  else some (digits.foldl (fun n x => n * 10 + (x.toNat - 48)) 0, after)

/-- A directive, from its sign on. -/
def directive (l : Lexer) : Option Lexer := do
  let l := (← (l.closeTo none).dropKey).allowKey false
  let (name, c) := (l.cursor.skip 1).takeWhile isNameChar
  guard (!name.isEmpty && atBlank c.rest)
  let c := (c.takeWhile isBlank).2
  let (token, c) ←
    if name = "YAML".toList then do
      let (major, c) ← versionNumber c
      guard (c.peek? 0 = some '.')
      let (minor, c) ← versionNumber (c.skip 1)
      some (Token.version major minor, c)
    else if name = "TAG".toList then do
      guard (c.peek? 0 = some '!')
      let (inner, after) := (c.skip 1).takeWhile isNameChar
      let closed := after.peek? 0 = some '!'
      guard (closed || inner.isEmpty)
      let handle := '!' :: inner ++ (if closed then ['!'] else [])
      let after := if closed then after.skip 1 else after
      guard ((after.rest.head?.map isBlank).getD false)
      let (expansion, after) := ((after.takeWhile isBlank).2).takeWhile isTagChar
      guard (!expansion.isEmpty && atBlank after.rest)
      some (Token.tagHandle handle (← unescapeTag (expansion.length + 1) expansion), after)
    else none
  let c := (c.takeWhile isBlank).2
  let c := if c.peek? 0 = some '#' then c.toLineEnd else c
  guard (atLineEnd c.rest)
  return (l.add l.cursor token).moveTo c.skipBreak

/-- A sign that opens brackets. -/
def openFlow (l : Lexer) (token : Token) : Option Lexer := do
  let l ← l.noteKey
  guard (l.slots.length ≤ maxDepth)
  return ({ l.add l.cursor token with slots := ⟨l.size, none⟩ :: l.slots }.skip 1).allowKey
    true

/-- A sign that closes brackets. -/
def closeFlow (l : Lexer) (token : Token) : Option Lexer := do
  let l ← l.dropKey
  let l := match l.slots with
    | inner :: rest =>
      if rest.isEmpty then l
      else { l with slots := rest, awaited := l.awaited.filter (· ≠ inner.place) }
    | [] => l
  return ((l.add l.cursor token).skip 1).allowKey false

/-- A comma in brackets. -/
def comma (l : Lexer) : Option Lexer := do
  let l ← l.dropKey
  return ((l.add l.cursor .comma).skip 1).allowKey true

/-- A dash in front of an item, or a question mark in front of a key. -/
def leading (l : Lexer) (block token : Token) (keyAfter : Bool) : Option Lexer := do
  guard (l.inFlow || l.keyAllowed)
  let l ← l.openBlock l.cursor.column l.size l.cursor block
  let l ← l.dropKey
  return ((l.add l.cursor token).skip 1).allowKey keyAfter

/-- A colon behind a key. -/
def colon (l : Lexer) : Option Lexer := do
  match l.slots with
  | ⟨place, some key⟩ :: _ =>
    if ← l.isValidKey key then
      let l := l.insertAt place key.start .key
      let l ← l.openBlock key.start.column place key.start .blockMapping
      let l := { l.setSlot ⟨place, none⟩ with awaited := l.awaited.filter (· ≠ place) }
      return ((l.add l.cursor .value).skip 1).allowKey false
    else behindNoKey (l.setSlot ⟨place, none⟩)
  | _ => behindNoKey l
where
  /-- A colon that no key on its line belongs to. -/
  behindNoKey (l : Lexer) : Option Lexer := do
    guard (l.inFlow || l.keyAllowed)
    let l ← l.openBlock l.cursor.column l.size l.cursor .blockMapping
    return ((l.add l.cursor .value).skip 1).allowKey !l.inFlow

/-- A mark between documents. -/
def documentMark (l : Lexer) (token : Token) : Option Lexer := do
  let l := (← (l.closeTo none).dropKey).allowKey false
  return (l.add l.cursor token).skip 3

/-- The end of the document. -/
def finish (l : Lexer) : Option Lexer := do
  let l := (← (l.closeTo none).dropKey).allowKey false
  return l.add l.cursor .streamEnd

/-- A plain scalar can start here. -/
def startsPlain (inFlow : Bool) : List Char → Bool
  | [] => false
  | c :: rest =>
    let special := isBlank c || isBreak c || ['-', '?', ':', ',', '[', ']', '\x7b', '\x7d', '#', '&',
      '*', '!', '|', '>', '\'', '"', '%', '@', '`'].contains c
    !special || (c = '-' && !(rest.head?.map isBlank).getD false) ||
      (!inFlow && (c = '?' || c = ':') && !atBlank rest)

/-- The cursor behind blanks and line feeds or carriage returns, `fuel` of them at most. -/
def gapEnd : (fuel : Nat) → Cursor → Cursor
  | 0, c => c
  | fuel + 1, c =>
    match c.rest with
    | x :: _ =>
      if isBlank x then gapEnd fuel (c.skip 1)
      else if x = '\n' || x = '\r' then gapEnd fuel c.skipBreak
      else c
    | [] => c

/-- The cursor behind the comments on the following lines, `fuel` of them at most, from the end of a
comment on. Such a comment may be indented by tabs, and at most 511 characters lie between two. -/
def commentsEnd : (fuel : Nat) → Cursor → Cursor
  | 0, c => c
  | fuel + 1, c =>
    let next := gapEnd c.left c
    if next.peek? 0 = some '#' && c.index < next.index && next.index < c.index + 512 then
      commentsEnd fuel next.toLineEnd
    else c

/-- Passes over blanks, comments and line breaks, `fuel` of them at most. Tabs are not passed over
where a key may start. -/
def skipBlanks : (fuel : Nat) → Lexer → Lexer
  | 0, l => l
  | fuel + 1, l =>
    let c := l.cursor
    let marked := 0 < l.markedUpTo && (c.index = 0 || c.index + 2 ≤ l.markedUpTo)
    let c := if c.column = 0 && marked then c.skip 1 else c
    let tabs := l.inFlow || !l.keyAllowed
    let c := (c.takeWhile fun x => x = ' ' || (tabs && x = '\t')).2
    let c := if c.peek? 0 = some '#' then commentsEnd c.left c.toLineEnd else c
    match c.rest with
    | [] => l.moveTo c
    | x :: _ =>
      if isBreak x then
        skipBlanks fuel ((l.moveTo c.skipBreak).allowKey (l.keyAllowed || !l.inFlow))
      else l.moveTo c

/-- The state behind the token that starts at the cursor. -/
def token (l : Lexer) : Option Lexer :=
  match l.cursor.rest with
  | [] => l.finish
  | c :: rest =>
    let atStart := l.cursor.column = 0
    if atStart && c = '%' then l.directive
    else if atStart && atDocumentMark (c :: rest) then
      l.documentMark (if c = '-' then .documentStart else .documentEnd)
    else if c = '[' then (l.openFlow .flowSequence).map lineComment
    else if c = '\x7b' then (l.openFlow .flowMapping).map lineComment
    else if c = ']' then (l.closeFlow .flowSequenceEnd).map lineComment
    else if c = '\x7d' then (l.closeFlow .flowMappingEnd).map lineComment
    else if c = ',' then l.comma.map lineComment
    else if c = '-' && atBlank rest then l.leading .blockSequence .entry true
    else if c = '?' && (l.inFlow || atBlank rest) then
      (l.leading .blockMapping .key !l.inFlow).map lineComment
    else if c = ':' && (l.inFlow || atBlank rest) then l.colon.map lineComment
    else if c = '*' then (l.anchor .alias).map lineComment
    else if c = '&' then (l.anchor .anchor).map lineComment
    else if c = '!' then l.tag.map lineComment
    else if c = '|' && !l.inFlow then l.blockText false
    else if c = '>' && !l.inFlow then l.blockText true
    else if c = '\'' then (l.quoted true).map lineComment
    else if c = '"' then (l.quoted false).map lineComment
    else if startsPlain l.inFlow (c :: rest) then l.plain
    else none

/-- The state behind one more token, or none if the text cannot be cut further. Near the end of what
can be read it is not known how the text goes on. -/
def next (l : Lexer) : Option Lexer := do
  let l := skipBlanks (l.cursor.left + 1) l
  let l := l.closeTo (some l.cursor.column)
  guard (l.whole || 4 ≤ l.cursor.left)
  let l ← l.token
  guard (l.whole || !l.cursor.rest.isEmpty)
  return l

/-- The first token that has not been dealt with may still turn out to be the start of a key. -/
def headIsAwaited (l : Lexer) : Option Bool :=
  if l.awaited.contains l.taken then
    match l.slots.find? fun slot => slot.place = l.taken && slot.key.isSome with
    | some ⟨_, some key⟩ => l.isValidKey key
    | _ => some false
  else some false

/-- The first token that has not been dealt with, with the state in which it is known. At most
`fuel` tokens are cut. -/
def lookAhead : (fuel : Nat) → Lexer → Option (Located × Lexer)
  | 0, _ => none
  | fuel + 1, l => do
    let enough := 2 < l.pending.size
    if enough && !(← l.headIsAwaited) then return (← l.pending[0]?, l)
    lookAhead fuel (← l.next)

/-- The first token that has not been dealt with, with the state in which it is known. -/
def peek (l : Lexer) : Option (Located × Lexer) := l.lookAhead (l.cursor.left + 4)

/-- The state in which one more token has been dealt with. -/
def take (l : Lexer) : Lexer :=
  { l with taken := l.taken + 1, pending := l.pending.extract 1 l.pending.size }

end Lexer

end PackageCycles.Yaml
