import PackageCycles.Pattern.Fault
import PackageCycles.Pattern.Regex

/-!
# Reading the parts of a pattern

A pattern is read from left to right by operations on what is left of it. This module has the state
they work on and the parts that do not nest: blanks and comments, numbers, names, options, escape
sequences and sets. `counting` marks the first pass over a pattern, which only finds out which
groups there are; it goes over the same text but builds nothing, and passes over faults that the
second pass will report.
-/

namespace PackageCycles.Pattern

/-- The options that hold at a place of a pattern. -/
structure Options where
  /-- Case is ignored. -/
  ignoreCase : Bool
  /-- `^` and `$` stand for the ends of lines. -/
  multiline : Bool
  /-- Only groups with a name or number capture. -/
  explicitCapture : Bool
  /-- `.` stands for every character. -/
  singleLine : Bool
  /-- Blanks and comments in the pattern mean nothing. -/
  spaced : Bool
  /-- The text is read backwards. -/
  backward : Bool
  deriving DecidableEq

/-- The options at the start of a pattern. -/
def Options.none : Options := ⟨false, false, false, false, false, false⟩

/-- How characters are read. -/
def Options.mode (o : Options) : Mode :=
  ⟨o.ignoreCase, if o.backward then .backward else .forward⟩

/-- The groups of a pattern. -/
structure Groups where
  /-- The numbers in use. -/
  numbers : List Nat
  /-- The names with their numbers. -/
  names : List (List Char × Nat)
  deriving DecidableEq

/-- The state of reading a pattern. -/
structure Reader where
  /-- What is left of the pattern. -/
  rest : List Char
  /-- The options that hold here. -/
  options : Options
  /-- The groups of the pattern, as far as they are known. -/
  groups : Groups
  /-- The number of the next group without a name. -/
  nextNumber : Nat
  /-- The next plain group does not capture. -/
  skipCapture : Bool

/-- An operation on the state that may find a fault; the state outlives the fault. -/
abbrev Read (α : Type) := ExceptT Fault (StateM Reader) α

namespace Read

/-- What is left of the pattern. -/
def rest : Read (List Char) := return (← get).rest

/-- Goes on with what is given. -/
def setRest (rest : List Char) : Read Unit := modify fun r => { r with rest := rest }

/-- The character at a distance, if there is one. -/
def peek? (n : Nat) : Read (Option Char) := return (← rest)[n]?

/-- Passes over some characters. -/
def skip (n : Nat) : Read Unit := do setRest ((← rest).drop n)

/-- The next character, which is passed over. -/
def next? : Read (Option Char) := do
  match ← rest with
  | [] => return none
  | c :: cs =>
    setRest cs
    return some c

/-- Passes over the characters that satisfy a condition. -/
def takeWhile (p : Char → Bool) : Read (List Char) := do
  let cs ← rest
  setRest (cs.dropWhile p)
  return cs.takeWhile p

/-- The options that hold here. -/
def options : Read Options := return (← get).options

/-- Changes the options. -/
def setOptions (o : Options) : Read Unit := modify fun r => { r with options := o }

/-- The number is that of a group. -/
def isNumber (n : Nat) : Read Bool := return (← get).groups.numbers.contains n

/-- The number of the group with a name. -/
def numberOf? (name : List Char) : Read (Option Nat) := return (← get).groups.names.lookup name

/-- The operation with a fault passed over. -/
def attempt {α : Type} (act : Read α) : Read Unit := do
  try
    let _ ← act
    return ()
  catch _ => return ()

end Read

open Read

/-- A character that is a blank in a spaced pattern. -/
def isSpace (c : Char) : Bool := (9 ≤ c.toNat && c.toNat ≤ 13) || c = ' '

/-- A character that repeats what is before it. `{` does so only at the start of a count. -/
def isQuantifier (c : Char) : Bool := c = '*' || c = '+' || c = '?' || c = '\x7b'

/-- A character with a meaning of its own. -/
def isSpecial (c : Char) : Bool :=
  isQuantifier c || ['$', '(', ')', '.', '[', '\\', '^', '|'].contains c

/-- A character at which a literal stretch of a spaced pattern ends. -/
def isSpacedSpecial (c : Char) : Bool := isSpecial c || isSpace c || c = '#'

/-- A decimal digit. -/
def isDigit (c : Char) : Bool := '0' ≤ c && c ≤ '9'

/-- The text starts with a quantifier. A `{` counts if digits and perhaps a comma and more digits
follow up to a `}`. -/
def startsQuantifier : List Char → Bool
  | [] => false
  | c :: rest =>
    if c ≠ '\x7b' then isQuantifier c
    else if (rest.takeWhile isDigit).isEmpty then false
    else match rest.dropWhile isDigit with
      | '\x7d' :: _ => true
      | ',' :: more =>
        match more.dropWhile isDigit with
        | '\x7d' :: _ => true
        | _ => false
      | _ => false

/-- The text behind blanks and comments, or none if a comment is not closed. At most `fuel` of them
are passed over. -/
def afterBlanks (spaced : Bool) : (fuel : Nat) → List Char → Option (List Char)
  | 0, cs => some cs
  | fuel + 1, cs =>
    let cs := if spaced then cs.dropWhile isSpace else cs
    match cs with
    | '(' :: '?' :: '#' :: _ =>
      match cs.dropWhile (· ≠ ')') with
      | [] => none
      | _ :: more => afterBlanks spaced fuel more
    | '#' :: _ => if spaced then afterBlanks spaced fuel (cs.dropWhile (· ≠ '\n')) else some cs
    | _ => some cs

/-- Passes over blanks and comments. -/
def blanks : Read Unit := do
  let cs ← rest
  match afterBlanks (← options).spaced (cs.length + 1) cs with
  | some more => setRest more
  | none =>
    setRest []
    throw .unterminatedComment

/-- The greatest number that may be written. -/
def maxNumber : Nat := 2147483647

/-- A decimal number; without digits it is zero. -/
def number : Read Nat := do
  let digits ← Read.takeWhile isDigit
  let n := digits.foldl (fun n c => n * 10 + (c.toNat - 48)) 0
  if maxNumber < n then throw .numberTooLarge
  return n

/-- The name of a group. -/
def name : Read (List Char) := Read.takeWhile Unicode.isWordChar

/-- The options that result from letters that switch them on, or off behind a minus sign, and what
follows the letters. -/
def readOptions (off : Bool) (o : Options) : List Char → Options × List Char
  | [] => (o, [])
  | c :: rest =>
    match c with
    | '-' => readOptions true o rest
    | '+' => readOptions false o rest
    | 'i' | 'I' => readOptions off { o with ignoreCase := !off } rest
    | 'm' | 'M' => readOptions off { o with multiline := !off } rest
    | 'n' | 'N' => readOptions off { o with explicitCapture := !off } rest
    | 's' | 'S' => readOptions off { o with singleLine := !off } rest
    | 'x' | 'X' => readOptions off { o with spaced := !off } rest
    | 'd' | 'D' | 'u' | 'U' => readOptions off o rest
    | _ => (o, c :: rest)

/-- Reads letters that change options. -/
def optionLetters : Read Unit := do
  let (o, more) := readOptions false (← options) (← rest)
  setOptions o
  setRest more

/-- The value of a hexadecimal digit. -/
def hexValue? (c : Char) : Option Nat :=
  if isDigit c then some (c.toNat - 48)
  else if 'a' ≤ c && c ≤ 'f' then some (c.toNat - 87)
  else if 'A' ≤ c && c ≤ 'F' then some (c.toNat - 55)
  else none

/-- The code point written with exactly `count` hexadecimal digits. -/
def hexDigits (count : Nat) : Read Nat := do
  let digits := (← rest).take count
  let values := digits.filterMap hexValue?
  if values.length < count then
    if count ≤ digits.length then skip ((digits.takeWhile fun c => (hexValue? c).isSome).length + 1)
    throw .tooFewHex
  skip count
  return values.foldl (fun n d => n * 16 + d) 0

/-- The value of hexadecimal digits up to a closing brace, or what is wrong with them, with what
follows the place where reading ends. -/
def bracedValue (value : Nat) (some? : Bool) : List Char → Except Fault Nat × List Char
  | [] => (.error .missingBrace, [])
  | '\x7d' :: rest => (if some? then .ok value else .error .tooFewHex, rest)
  | c :: rest =>
    match hexValue? c with
    | none => (.error .missingBrace, rest)
    | some d =>
      if 0x10FFFF < value * 16 + d then (.error .hexTooLarge, rest)
      else bracedValue (value * 16 + d) true rest

/-- A code point in hexadecimal between braces. -/
def bracedHex : Read Nat := do
  let (value, more) := bracedValue 0 false (← rest)
  setRest more
  match value with
  | .ok value => return value
  | .error fault => throw fault

/-- The code point written with up to three octal digits. -/
def octal : Read Nat := do
  let isOctal := fun (c : Char) => '0' ≤ c && c ≤ '7'
  let digits := ((← rest).take 3).takeWhile isOctal
  skip digits.length
  return digits.foldl (fun n c => n * 8 + (c.toNat - 48)) 0 % 256

/-- A control character by its letter. -/
def control : Read Nat := do
  match ← next? with
  | none => throw .missingControl
  | some c =>
    let c := if 'a' ≤ c && c ≤ 'z' then c.toUpper else c
    if 64 ≤ c.toNat && c.toNat < 96 then return c.toNat - 64
    else throw .unrecognizedControl

/-- The code point that an escape sequence stands for, read from behind the backslash. -/
def escapedCode : Read Nat := do
  match ← peek? 0 with
  | none => throw .trailingBackslash
  | some c =>
    if '0' ≤ c && c ≤ '7' then octal
    else
      skip 1
      match c with
      | 'x' =>
        if (← peek? 0) = some '\x7b' then
          skip 1
          bracedHex
        else hexDigits 2
      | 'u' => hexDigits 4
      | 'a' => return 7
      | 'b' => return 8
      | 'e' => return 27
      | 'f' => return 12
      | 'n' => return 10
      | 'r' => return 13
      | 't' => return 9
      | 'v' => return 11
      | 'c' => control
      | _ => if Unicode.isWordChar c then throw (.unrecognizedEscape c) else return c.toNat

/-- The property named behind `\p` or `\P`. -/
def property : Read Unicode.Property := do
  let find := fun (name : List Char) =>
    match Unicode.Property.ofName? (String.ofList name) with
    | some p => (return p : Read Unicode.Property)
    | none => throw (.unknownProperty name)
  match ← rest with
  | [] => throw .incompleteProperty
  | '\x7b' :: more =>
    if more.length < 2 then throw .incompleteProperty
    skip 1
    let name ← Read.takeWhile fun c => Unicode.isWordChar c || c = '-'
    match ← next? with
    | some '\x7d' => find name
    | _ => throw .incompleteProperty
  | c :: _ =>
    skip 1
    find [c]

/-- The text after a posix class such as `:alpha:]`, if the text starts with one. Such a class adds
nothing to a set. -/
def afterPosixClass? (cs : List Char) : Option (List Char) :=
  match cs with
  | ':' :: rest =>
    let rest := match rest with
      | '^' :: c :: more => c :: more
      | other => other
    match rest.dropWhile Unicode.isWordChar with
    | ':' :: ']' :: more => some more
    | _ => none
  | _ => none

/-- What has been read of a set. -/
structure SetState where
  /-- The ranges and classes so far. -/
  group : CharGroup
  /-- The first character of a range whose last one is still to come. -/
  pending : Option Nat
  /-- Nothing has been read yet. -/
  first : Bool

/-- The class that a letter behind a backslash names, and whether all but it is meant. -/
def classLetter? (c : Char) : Option (ClassTest × Bool) :=
  match c with
  | 'd' => some (.property (.category .nd), false)
  | 'D' => some (.property (.category .nd), true)
  | 's' => some (.blank, false)
  | 'S' => some (.blank, true)
  | 'w' => some (.word, false)
  | 'W' => some (.word, true)
  | _ => none

namespace set

/-- The group as it is asked when the set is complete. -/
def finished (ignoreCase : Bool) (group : CharGroup) : CharGroup :=
  if ignoreCase then group.lowered else group

/-- The state behind an opening bracket. -/
def opening : Read SetState := do
  if (← peek? 0) = some '^' then
    skip 1
    return ⟨{ CharGroup.empty with negated := true }, none, true⟩
  return ⟨CharGroup.empty, none, true⟩

variable (readOn : SetState → Read CharSet)

/-- Reads the set to be taken away, from behind its bracket, and the end of this one. -/
def subtract (ignoreCase : Bool) (group : CharGroup) : Read CharSet := do
  let removed ← readOn (← opening)
  match ← peek? 0 with
  | none => throw .unterminatedSet
  | some ']' =>
    skip 1
    return .minus (finished ignoreCase group) removed
  | some _ => throw .subtractionNotLast

/-- Takes in a code point that starts no range and reads on. -/
def single (counting ignoreCase : Bool) (s : SetState) (code : Nat) (escaped : Bool) :
    Read CharSet := do
  if code = '-'.toNat && !escaped && !s.first && (← peek? 0) = some '[' then
    skip 1
    if counting then
      attempt (readOn (← opening))
      readOn { s with first := false }
    else subtract readOn ignoreCase s.group
  else
    readOn { s with group := s.group.addRange code code, first := false }

/-- Takes in a code point that stands for itself and reads on. -/
def ordinary (counting ignoreCase : Bool) (s : SetState) (code : Nat) (escaped : Bool) :
    Read CharSet := do
  match s.pending with
  | some low =>
    let s := { s with pending := none, first := false }
    if counting then readOn s
    else if code = '['.toNat && !escaped then subtract readOn ignoreCase (s.group.addRange low low)
    else if code < low then throw (.reversedRange low code)
    else readOn { s with group := s.group.addRange low code }
  | none =>
    let ahead ← rest
    match ahead with
    | '-' :: d :: _ =>
      if d ≠ ']' then
        skip 1
        readOn { s with pending := some code, first := false }
      else single readOn counting ignoreCase s code escaped
    | _ => single readOn counting ignoreCase s code escaped

end set

/-- Reads a set from behind its opening bracket to its closing one, `fuel` characters of it at
most. -/
def set (counting ignoreCase : Bool) : (fuel : Nat) → SetState → Read CharSet
  | 0, _ => throw .unterminatedSet
  | fuel + 1, s => do
    let ordinary := set.ordinary (set counting ignoreCase fuel) counting ignoreCase s
    match ← next? with
    | none => throw .unterminatedSet
    | some ']' =>
      if s.first then ordinary ']'.toNat false
      else return .plain (set.finished ignoreCase s.group)
    | some '\\' =>
      match ← peek? 0 with
      | none => ordinary '\\'.toNat false
      | some c =>
        if (classLetter? c).isSome || c = 'p' || c = 'P' then
          skip 1
          if s.pending.isSome && !counting then throw (.classInRange c)
          match classLetter? c with
          | some (test, negated) =>
            set counting ignoreCase fuel
              { s with group := s.group.addClass ⟨test, negated⟩, first := false }
          | none =>
            if counting then
              attempt property
              set counting ignoreCase fuel { s with first := false }
            else
              let p ← property
              set counting ignoreCase fuel
                { s with group := s.group.addProperty p (c = 'P') ignoreCase, first := false }
        else if c = '-' then
          skip 1
          set counting ignoreCase fuel
            { s with group := s.group.addRange '-'.toNat '-'.toNat, first := false }
        else ordinary (← escapedCode) true
    | some '[' =>
      if s.pending.isNone then
        match afterPosixClass? (← rest) with
        | some more => setRest more
        | none => pure ()
      ordinary '['.toNat false
    | some c => ordinary c.toNat false

end PackageCycles.Pattern
