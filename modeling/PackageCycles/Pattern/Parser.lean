import PackageCycles.Pattern.Scanner

/-!
# Reading a pattern

A pattern is read twice. The first pass finds the groups that capture and gives each a number:
groups without a name are numbered from one in the order of their parentheses, and named groups get
the numbers that are left. The second pass builds the expression. It keeps the groups that are open,
the innermost first, and takes a stretch of literal text and the sign behind it at a time.
-/

namespace PackageCycles.Pattern

open Read

/-- The part of a text that comes before a suffix of it. -/
def textBefore (text suffix : List Char) : List Char := text.take (text.length - suffix.length)

/-! ## Escape sequences outside sets -/

/-- The condition on a position that a letter behind a backslash names. -/
def anchorLetter? (c : Char) : Option Anchor :=
  match c with
  | 'b' => some .wordBoundary
  | 'B' => some .notWordBoundary
  | 'A' => some .textStart
  | 'G' => some .searchStart
  | 'Z' => some .lastLineEnd
  | 'z' => some .textEnd
  | _ => none

/-- The expression for a code point that stands for itself. -/
def literalUnit (o : Options) (code : Nat) : Regex :=
  .single (.literal (if o.ignoreCase then Unicode.lowerCode code else code)) o.mode

/-- The expression for a set. -/
def setUnit (o : Options) (set : CharSet) : Regex := .single (.oneOf set) o.mode

/-- The expression for a reference to a group. -/
def referenceUnit (o : Options) (number : Nat) : Regex := .reference number o.mode

/-- The character that closes a name opened by another one. -/
def closing? (c : Char) : Option Char :=
  match c with
  | '<' => some '>'
  | '\'' => some '\''
  | _ => none

/-- A reference by number or name, read from behind its opening bracket; none if the text turns out
to be something else. With `strict` a missing name or one that is not closed is a fault. -/
def bracketedReference (counting strict : Bool) (close : Char) : Read (Option Regex) := do
  let o ← options
  match ← peek? 0 with
  | none => return none
  | some c =>
    if isDigit c then
      let n ← number
      if (← next?) = some close then
        if ← isNumber n then return some (referenceUnit o n)
        throw (.undefinedNumber n)
      return none
    else
      let key ← name
      if !key.isEmpty then
        if (← next?) = some close then
          if counting then return some .empty
          match ← numberOf? key with
          | some n => return some (referenceUnit o n)
          | none => throw (.undefinedName key)
      if strict then throw .malformedNameReference
      return none

/-- A reference to a group by its number alone; none if there is no such group and the number has
more than one digit. -/
def numberReference (counting : Bool) : Read (Option Regex) := do
  let n ← number
  if counting then return some .empty
  if ← isNumber n then return some (referenceUnit (← options) n)
  if n ≤ 9 then throw (.undefinedNumber n)
  return none

/-- A reference to a group, read from behind the backslash; none if the text is an escape sequence
of another kind. -/
def reference (counting : Bool) : Read (Option Regex) := do
  match ← rest with
  | [] => return none
  | 'k' :: more =>
    match more with
    | [] => throw .malformedNameReference
    | c :: _ =>
      skip 2
      match closing? c with
      | none => throw .malformedNameReference
      | some close =>
        if (← rest).isEmpty then throw .malformedNameReference
        bracketedReference counting true close
  | c :: more =>
    match closing? c with
    | some close =>
      if more.isEmpty then return none
      skip 1
      bracketedReference counting false close
    | none =>
      if '1' ≤ c && c ≤ '9' then numberReference counting
      else return none

/-- The set for a class letter outside a set. All but the digits is a negated class, while all but
the words or blanks is a negated set. -/
def classGroup (test : ClassTest) (negated : Bool) : CharGroup :=
  match test with
  | .property _ => CharGroup.ofClass test negated
  | _ => { CharGroup.ofClass test false with negated := negated }

/-- What an escape sequence outside a set denotes, read from behind the backslash. -/
def backslash (counting : Bool) : Read Regex := do
  let o ← options
  match ← peek? 0 with
  | none => throw .trailingBackslash
  | some c =>
    match anchorLetter? c, classLetter? c with
    | some a, _ =>
      skip 1
      return .anchor a
    | none, some (test, negated) =>
      skip 1
      return setUnit o (.plain (classGroup test negated))
    | none, none =>
      if c = 'p' || c = 'P' then
        skip 1
        let p ← property
        return setUnit o (.plain (CharGroup.empty.addProperty p (c = 'P') o.ignoreCase))
      else
        let start ← rest
        match ← reference counting with
        | some r => return r
        | none =>
          setRest start
          return literalUnit o (← escapedCode)

/-- Reads a set from behind its opening bracket. -/
def bracketed (counting ignoreCase : Bool) : Read CharSet := do
  let fuel := (← rest).length + 1
  set counting ignoreCase fuel (← set.opening)

/-! ## The groups of a pattern -/

/-- Notes that a number is in use. -/
def noteNumber (n : Nat) : Read Unit :=
  modify fun r =>
    if r.groups.numbers.contains n then r
    else { r with groups := { r.groups with numbers := r.groups.numbers ++ [n] } }

/-- Notes that there is a group with a name. Its number is settled later. -/
def noteName (key : List Char) : Read Unit :=
  modify fun r =>
    if (r.groups.names.lookup key).isSome then r
    else { r with groups := { r.groups with names := r.groups.names ++ [(key, 0)] } }

/-- The number of a group without a name. -/
def takeNumber : Read Nat := do
  let n := (← get).nextNumber
  modify fun r => { r with nextNumber := n + 1 }
  return n

/-- Says whether the next plain group captures. -/
def setSkipCapture (skipped : Bool) : Read Unit :=
  modify fun r => { r with skipCapture := skipped }

/-- A name or number follows the question mark, as far as one can tell from the bracket in front of
it. -/
def opensName : List Char → Bool
  | c :: _ :: _ => (closing? c).isSome
  | _ => false

/-- Goes over the name or number of a group. -/
def countNamed : Read Unit := do
  match ← peek? 0 with
  | some c =>
    if '1' ≤ c && c ≤ '9' then noteNumber (← number)
    else if c ≠ '0' && Unicode.isWordChar c then noteName (← name)
  | none => pure ()
  setSkipCapture false

/-- Goes over the start of a group without a prefix. -/
def countPlain : Read Unit := do
  if !(← options).explicitCapture && !(← get).skipCapture then noteNumber (← takeNumber)
  setSkipCapture false

/-- Goes over what follows a question mark that no name follows; `o` are the options in front of
it. -/
def countPrefixed (o : Options) (saved : List Options) : Read (List Options) := do
  optionLetters
  match ← peek? 0 with
  | some ')' =>
    skip 1
    setSkipCapture false
    return saved
  | some '(' =>
    setSkipCapture true
    return o :: saved
  | _ =>
    setSkipCapture false
    return o :: saved

/-- Goes over an opening parenthesis that has been read. Gives the options to be restored by the
closing ones. -/
def countOpening (saved : List Options) : Read (List Options) := do
  let o ← options
  match ← rest with
  | '?' :: more =>
    skip 1
    if opensName more then
      skip 1
      countNamed
      return o :: saved
    countPrefixed o saved
  | _ =>
    countPlain
    return o :: saved

/-- Goes over a closing parenthesis that has been read. -/
def countClosing : List Options → Read (List Options)
  | [] => return []
  | o :: outer => do
    setOptions o
    return outer

/-- Goes over a sign and notes the group that it opens, if it opens one. Gives the options to be
restored by the closing parentheses that follow. -/
def countSign (saved : List Options) : Read (List Options) := do
  match ← rest with
  | '\\' :: more =>
    skip 1
    if !more.isEmpty then attempt (backslash true)
    return saved
  | '[' :: _ =>
    skip 1
    attempt (bracketed true false)
    return saved
  | ')' :: _ =>
    skip 1
    countClosing saved
  | '(' :: '?' :: '#' :: _ =>
    attempt blanks
    setSkipCapture false
    return saved
  | '(' :: _ =>
    skip 1
    countOpening saved
  | '#' :: _ =>
    if (← options).spaced then attempt blanks else skip 1
    return saved
  | _ =>
    skip 1
    return saved

/-- Goes over a pattern, `fuel` signs of it at most, and notes its groups. -/
def countGroups : (fuel : Nat) → List Options → Read Unit
  | 0, _ => return ()
  | fuel + 1, saved => do
    if !(← rest).isEmpty then countGroups fuel (← countSign saved)

/-- The least number from `n` on that is not in use, looking at `fuel` numbers at most. -/
def freeNumber (used : List Nat) : (fuel : Nat) → Nat → Nat
  | 0, n => n
  | fuel + 1, n => if used.contains n then freeNumber used fuel (n + 1) else n

/-- The groups with a free number for each name, from `n` on. -/
def numberNames (n : Nat) (numbers : List Nat) : List (List Char) → Groups
  | [] => ⟨numbers, []⟩
  | key :: rest =>
    let m := freeNumber numbers (numbers.length + 1) n
    let g := numberNames (m + 1) (numbers ++ [m]) rest
    { g with names := (key, m) :: g.names }

/-- The state before a pattern is read. -/
def Reader.start (pattern : List Char) (groups : Groups) : Reader :=
  ⟨pattern, Options.none, groups, 1, false⟩

/-- The groups of a pattern. -/
def groupsOf (pattern : List Char) : Except Fault Groups :=
  match (countGroups (pattern.length + 1) []).run (Reader.start pattern ⟨[0], []⟩) with
  | (.ok (), r) =>
    .ok (numberNames r.nextNumber r.groups.numbers (r.groups.names.map (·.1)))
  | (.error fault, _) => .error fault

/-! ## The expression of a pattern -/

/-- What a pair of parentheses means. -/
inductive GroupKind where
  | plain
  | capture (number release : Option Nat)
  | look (negative : Bool)
  | atomic
  | ifCaptured (number : Nat)
  | ifMatches
  deriving DecidableEq

/-- A group that has been opened. -/
structure Level where
  /-- What the group means. -/
  kind : GroupKind
  /-- The direction in which its text is read. -/
  heading : Heading
  /-- The options to be restored behind the group. -/
  saved : Options
  /-- The alternatives before the one in hand. The first one of `ifMatches` is its condition. -/
  before : List Regex
  /-- The parts of the alternative in hand, the latest first. -/
  parts : List Regex

namespace Level

/-- The group at its start. -/
def start (kind : GroupKind) (heading : Heading) (saved : Options) : Level :=
  ⟨kind, heading, saved, [], []⟩

/-- The group with a part added. -/
def push (l : Level) (r : Regex) : Level := { l with parts := r :: l.parts }

/-- The group with the alternative in hand finished. -/
def nextAlternative (l : Level) : Level :=
  { l with before := l.before ++ [Regex.sequence l.heading l.parts.reverse], parts := [] }

/-- The expression of the whole group. -/
def close (l : Level) : Except Fault Regex :=
  let all := l.nextAlternative.before
  let body := Regex.alternatives all
  match l.kind with
  | .plain => .ok body
  | .capture number release => .ok (.capture number release body)
  | .look negative => .ok (.look negative body)
  | .atomic => .ok (.atomic body)
  | .ifCaptured n =>
    match all with
    | [] => .ok .empty
    | [yes] => .ok (.ifCaptured n yes .empty)
    | [yes, no] => .ok (.ifCaptured n yes no)
    | _ => .error .tooManyAlternatives
  | .ifMatches =>
    match all with
    | [] => .ok .empty
    | [condition] => .ok (.ifMatches condition .empty .empty)
    | [condition, yes] => .ok (.ifMatches condition yes .empty)
    | [condition, yes, no] => .ok (.ifMatches condition yes no)
    | _ => .error .tooManyAlternatives

end Level

/-- The group whose opening is no known one, with the text read since `start`. -/
def unrecognized {α : Type} (start : List Char) : Read α := do
  throw (.unrecognizedGroup (textBefore start (← rest)))

/-- The number of the group to be released, read from behind the minus sign. -/
def releasedNumber (close : Char) : Read Nat := do
  match ← peek? 0 with
  | none => throw .groupName
  | some c =>
    let n ← if isDigit c then do
        let n ← number
        if ← isNumber n then pure n else throw (.undefinedNumber n)
      else if Unicode.isWordChar c then do
        let key ← name
        match ← numberOf? key with
        | some n => pure n
        | none => throw (.undefinedName key)
      else throw .groupName
    match ← peek? 0 with
    | some d => if d = close then return n else throw .groupName
    | none => return n

/-- Behind the name of a group stands a bracket or a minus sign, if anything. -/
def checkNameEnd (close : Char) : Read Unit := do
  match ← peek? 0 with
  | some d => if d ≠ close && d ≠ '-' then throw .groupName
  | none => return ()

/-- The group that captures under a number or releases another one, if its name ends here. -/
def capturing (start : List Char) (close : Char) (number release : Option Nat) : Read GroupKind := do
  if number.isSome || release.isSome then
    if (← next?) = some close then return .capture number release
  unrecognized start

/-- A group with a name or number, read from behind that: perhaps a minus sign and the group to be
released, and the closing bracket. -/
def namedGroupEnd (start : List Char) (close : Char) (mayRelease : Bool) (number : Option Nat) :
    Read GroupKind := do
  if mayRelease && (← peek? 0) = some '-' then
    skip 1
    capturing start close number (some (← releasedNumber close))
  else capturing start close number none

/-- A group with a name or number, read from behind the bracket that opens it. -/
def namedGroup (start : List Char) (close : Char) : Read GroupKind := do
  match ← peek? 0 with
  | none => unrecognized start
  | some c =>
    if isDigit c then
      let n ← number
      let known ← isNumber n
      checkNameEnd close
      if n = 0 && known then throw .groupZero
      namedGroupEnd start close known (if known then some n else none)
    else if Unicode.isWordChar c then
      let n ← numberOf? (← name)
      checkNameEnd close
      namedGroupEnd start close n.isSome n
    else if c = '-' then namedGroupEnd start close true none
    else throw .groupName

/-- A conditional, read from behind its second opening parenthesis. If the condition is not a group
by its number or name, it is left to be read as a group that does not capture. -/
def conditional : Read GroupKind := do
  let cs ← rest
  match cs with
  | [] => testGroup cs
  | c :: _ =>
    if isDigit c then
      let n ← number
      if (← next?) ≠ some ')' then throw (.malformedCondition n)
      if ← isNumber n then return .ifCaptured n
      throw (.undefinedCondition n)
    else if Unicode.isWordChar c then
      let key ← name
      match ← numberOf? key with
      | some n => if (← next?) = some ')' then return .ifCaptured n else testGroup cs
      | none => testGroup cs
    else testGroup cs
where
  /-- Goes back to the parenthesis of a condition that is an expression. -/
  testGroup (cs : List Char) : Read GroupKind := do
    setRest ('(' :: cs)
    setSkipCapture true
    match cs with
    | '?' :: '#' :: _ => throw .conditionComment
    | '?' :: '\'' :: _ => throw .conditionCaptures
    | '?' :: '<' :: c :: _ => if c ≠ '!' && c ≠ '=' then throw .conditionCaptures
    | _ => pure ()
    return .ifMatches

/-- An opening parenthesis is followed by no prefix. An empty one is read as the text of a group, in
which its question mark is a fault. -/
def startsPlain (cs : List Char) : Bool := cs[0]? ≠ some '?' || cs[1]? = some ')'

/-- A group without a prefix. -/
def plainGroup : Read GroupKind := do
  if (← options).explicitCapture || (← get).skipCapture then
    setSkipCapture false
    return .plain
  return .capture (some (← takeNumber)) none

/-- A lookaround in the given direction. -/
def lookaround (negative backward : Bool) : Read GroupKind := do
  setOptions { ← options with backward := backward }
  return .look negative

/-- Reads letters that change the options inside a group of the given kind, from behind the question
mark, and what ends them. None means that the parentheses end with them. -/
def optionsGroup (start : List Char) (inside : GroupKind) : Read (Option GroupKind) := do
  if inside ≠ .ifMatches then optionLetters
  match ← next? with
  | some ')' => return none
  | some ':' => return some .plain
  | _ => unrecognized start

/-- Reads what follows an opening parenthesis and a question mark inside a group of the given kind;
`start` is the text from the question mark on. None means that the parentheses only changed the
options. -/
def prefixedGroup (start : List Char) (inside : GroupKind) : Read (Option GroupKind) := do
  match ← next? with
  | none => unrecognized start
  | some ':' => return some .plain
  | some '=' => return some (← lookaround false false)
  | some '!' => return some (← lookaround true false)
  | some '>' => return some .atomic
  | some '\'' =>
    match ← peek? 0 with
    | some '=' | some '!' =>
      skip 1
      unrecognized start
    | _ => return some (← namedGroup start '\'')
  | some '<' =>
    match ← peek? 0 with
    | some '=' =>
      skip 1
      return some (← lookaround false true)
    | some '!' =>
      skip 1
      return some (← lookaround true true)
    | _ => return some (← namedGroup start '>')
  | some '(' => return some (← conditional)
  | some _ =>
    setRest (start.drop 1)
    optionsGroup start inside

/-- Reads what follows an opening parenthesis inside a group of the given kind. None means that the
parentheses only changed the options. -/
def groupOpening (inside : GroupKind) : Read (Option GroupKind) := do
  let start ← rest
  if startsPlain start then return some (← plainGroup)
  skip 1
  prefixedGroup start inside

/-- The groups that are open while a pattern is read. -/
structure Nest where
  /-- The innermost group. -/
  level : Level
  /-- The groups around it, the nearest first. -/
  outer : List Level
  /-- What was read last is a quantifier. -/
  afterQuantifier : Bool

namespace Nest

/-- The nest with a part added to the innermost group. -/
def push (n : Nest) (r : Regex) : Nest :=
  { n with level := n.level.push r, afterQuantifier := false }

/-- The nest with literal text added to the innermost group. -/
def pushLiteral (n : Nest) (o : Options) (cs : List Char) : Nest :=
  cs.foldl (fun n c => n.push (literalUnit o c.toNat)) { n with afterQuantifier := false }

end Nest

/-- Literal text ends at a character with the given text behind it. -/
def endsLiteral (spaced : Bool) (c : Char) (rest : List Char) : Bool :=
  (if spaced then isSpacedSpecial c else isSpecial c) &&
    !(c = '\x7b' && !startsQuantifier (c :: rest))

/-- The stretch of literal text at the start, and what follows it. -/
def literalText (spaced : Bool) : List Char → List Char × List Char
  | [] => ([], [])
  | c :: rest =>
    if endsLiteral spaced c rest then ([], c :: rest)
    else
      let (literal, more) := literalText spaced rest
      (c :: literal, more)

/-- The greatest number of repetitions in braces, read from behind the least one. -/
def greatest (least : Nat) : Read Nat := do
  if (← peek? 0) ≠ some ',' then return least
  skip 1
  if (← peek? 0) = some '\x7d' then return unbounded
  number

/-- The least and greatest number of repetitions, read from a quantifier. -/
def repetitions : Read Bounds := do
  match ← next? with
  | some '*' => return ⟨0, unbounded⟩
  | some '+' => return ⟨1, unbounded⟩
  | some '?' => return ⟨0, 1⟩
  | _ =>
    let least ← number
    let most ← greatest least
    skip 1
    return ⟨least, most⟩

/-- Adds a unit, in parentheses or not, with the quantifier that follows it, if one does. -/
def addUnit (n : Nest) (grouped : Bool) (unit : Regex) : Read Nest := do
  blanks
  if startsQuantifier (← rest) then
    let bounds ← repetitions
    blanks
    let lazy := (← peek? 0) = some '?'
    if lazy then skip 1
    if bounds.most < bounds.least then throw .repeatCount
    return { n.push (unit.times grouped bounds lazy) with afterQuantifier := true }
  return n.push unit

/-- Ends the innermost group and adds it to the one around it. -/
def closeGroup (n : Nest) : Read Nest := do
  match n.outer with
  | [] => throw .unexpectedParen
  | parent :: outer =>
    match n.level.close with
    | .error fault => throw fault
    | .ok r =>
      setOptions n.level.saved
      if parent.kind = .ifMatches && parent.before.isEmpty then
        return ⟨{ parent with before := [r] }, outer, false⟩
      addUnit ⟨parent, outer, false⟩ true r

/-- Opens a group from behind its parenthesis, or changes the options. -/
def openGroup (n : Nest) : Read Nest := do
  let o ← options
  match ← groupOpening n.level.kind with
  | none => return { n with afterQuantifier := false }
  | some kind =>
    return ⟨Level.start kind (← options).mode.heading o, n.level :: n.outer, false⟩

/-- The unit that a sign which has been read starts or stands for. -/
def signUnit (c : Char) : Read Regex := do
  let o ← options
  match c with
  | '[' => return setUnit o (← bracketed false o.ignoreCase)
  | '\\' => backslash false
  | '^' => return .anchor (if o.multiline then .lineStart else .textStart)
  | '$' => return .anchor (if o.multiline then .lineEnd else .lastLineEnd)
  | _ =>
    if o.singleLine then return setUnit o (.plain CharGroup.all)
    return .single (.other '\n'.toNat) o.mode

/-- Reads on from a sign that has been read. -/
def readSign (n : Nest) (c : Char) : Read Nest := do
  match c with
  | '(' => openGroup n
  | '|' => return { n with level := n.level.nextAlternative, afterQuantifier := false }
  | ')' => closeGroup n
  | _ => addUnit n false (← signUnit c)

/-- Reads on from behind a stretch of literal text and blanks: the sign there, or a quantifier of
the last character. -/
def readBehind (n : Nest) (literal : List Char) : Read Nest := do
  let o ← options
  match ← rest with
  | [] => return n.pushLiteral o literal
  | c :: _ =>
    if !isSpecial c then return n.pushLiteral o literal
    if isQuantifier c then
      match literal.getLast? with
      | none => throw (if n.afterQuantifier then .nestedRepeat else .missingRepeatArgument)
      | some last => addUnit (n.pushLiteral o literal.dropLast) false (literalUnit o last.toNat)
    else
      skip 1
      if literal.isEmpty then readSign n c else readSign (n.pushLiteral o literal) c

/-- Reads a stretch of literal text and the sign behind it. -/
def readStretch (n : Nest) : Read Nest := do
  blanks
  let (literal, more) := literalText (← options).spaced (← rest)
  setRest more
  attempt blanks
  readBehind n literal

/-- Reads to the end of the pattern, `fuel` stretches at most. -/
def readAll : (fuel : Nat) → Nest → Read Regex
  | 0, n => finish n
  | fuel + 1, n => do
    if (← rest).isEmpty then finish n else readAll fuel (← readStretch n)
where
  /-- The expression of the whole pattern. -/
  finish (n : Nest) : Read Regex := do
    if !n.outer.isEmpty then throw .missingParen
    match n.level.close with
    | .ok r => return r
    | .error fault => throw fault

/-- The expression that a pattern denotes. -/
def Regex.parse (pattern : List Char) : Except Fault Regex := do
  let groups ← groupsOf pattern
  let start := Level.start .plain .forward Options.none
  ((readAll (pattern.length + 1) ⟨start, [], false⟩).run (Reader.start pattern groups)).1

end PackageCycles.Pattern
