import PackageCycles.Pattern.Capture
import PackageCycles.Pattern.Regex

/-!
# Matching

An expression is matched against a text by a machine that keeps a list of tasks, the position in the
text, a stack of numbers, the captures made so far, and the alternatives that have been put off, the
latest first. A task that fails takes up the latest alternative. Lookaround and atomic groups forget
the alternatives that were put off since they were entered.

The stack holds what tasks have to know about their beginning: groups and loops put the position
there where they, or their latest iterations, start, and loops with a bound also put the number of
their iterations on top of it, counted from zero when the least number has been reached. `-1` is the
start of a loop that has not begun.

A loop ends when an iteration beyond the least number has read nothing, so a body that can match the
empty text does not keep the machine busy. A lazy loop without a bound whose iteration has read
nothing leaves the start of that iteration on the stack. Still the number of ways to match can grow
exponentially with the text; a match that takes more than `maxSteps` steps is given up.
-/

namespace PackageCycles.Pattern

/-- What is left to be done. -/
inductive Task where
  /-- Match an expression. -/
  | run (r : Regex)
  /-- Decide on another iteration of a loop without a bound. -/
  | again (body : Regex) (lazy : Bool)
  /-- Decide on another iteration of a loop with at most `limit` iterations beyond the least
  number. -/
  | againCounted (body : Regex) (limit : Nat) (lazy : Bool)
  /-- A run may still be shortened by `left` characters from here on. -/
  | giveBack (heading : Heading) (left : Nat)
  /-- A run takes one more character and then at most `left` others. -/
  | takeMore (test : Single) (mode : Mode) (left : Nat)
  /-- Capture the text from the position on the stack on. -/
  | capture (number release : Option Nat)
  /-- Forget all but the first `height` alternatives. -/
  | commit (height : Nat)
  /-- Do the same and return to the position on the stack. -/
  | goBack (height : Nat)
  /-- Do the same and fail. -/
  | refuse (height : Nat)

/-- A way to go on. -/
structure Thread where
  /-- The tasks, the next one first. -/
  tasks : List Task
  /-- The number of characters before the position. -/
  position : Nat
  /-- The stack, its top first. -/
  stack : List Int
  /-- The captures. -/
  captures : Captures

/-- A thread with the alternatives to it. -/
structure Machine where
  /-- The thread in hand. -/
  current : Thread
  /-- The alternatives, the latest first. -/
  alternatives : List Thread

/-- What a step leads to. -/
inductive Outcome where
  | running (m : Machine)
  | matched
  | failed

namespace Machine

/-- Takes up the latest alternative. -/
def fail (m : Machine) : Outcome :=
  match m.alternatives with
  | [] => .failed
  | t :: rest => .running ⟨t, rest⟩

/-- The machine with the oldest `height` alternatives only. -/
def forget (m : Machine) (height : Nat) : Machine :=
  { m with alternatives := m.alternatives.drop (m.alternatives.length - height) }

/-- The machine with other tasks. -/
def withTasks (m : Machine) (tasks : List Task) : Machine :=
  { m with current := { m.current with tasks := tasks } }

/-- The machine with another stack. -/
def withStack (m : Machine) (stack : List Int) : Machine :=
  { m with current := { m.current with stack := stack } }

/-- The machine at another position. -/
def moveTo (m : Machine) (position : Nat) : Machine :=
  { m with current := { m.current with position := position } }

/-- The machine with the thread in hand as an alternative that does other tasks. -/
def putOff (m : Machine) (tasks : List Task) : Machine :=
  { m with alternatives := { m.current with tasks := tasks } :: m.alternatives }

end Machine

/-- The character that is read next in the given direction, with the position behind it. -/
def nextChar (text : Array Char) (heading : Heading) (position : Nat) : Option (Char × Nat) :=
  match heading with
  | .forward => (text[position]?).map fun c => (c, position + 1)
  | .backward =>
    match position with
    | 0 => none
    | before + 1 => (text[before]?).map fun c => (c, before)

/-- A character as it is compared. -/
def compared (ignoreCase : Bool) (c : Char) : Char := if ignoreCase then Unicode.toLower c else c

/-- The position behind the next character, if it passes a test. -/
def readOne (text : Array Char) (test : Single) (mode : Mode) (position : Nat) : Option Nat :=
  match nextChar text mode.heading position with
  | some (c, next) => if test.accepts (compared mode.ignoreCase c) then some next else none
  | none => none

/-- How many characters there are in the given direction. -/
def available (text : Array Char) (heading : Heading) (position : Nat) : Nat :=
  match heading with
  | .forward => text.size - position
  | .backward => position

/-- The position behind the next characters that pass a test, `most` at most, and their number. -/
def readMany (text : Array Char) (test : Single) (mode : Mode) :
    (most position : Nat) → Nat × Nat
  | 0, position => (position, 0)
  | most + 1, position =>
    match readOne text test mode position with
    | some next =>
      let (stop, count) := readMany text test mode most next
      (stop, count + 1)
    | none => (position, 0)

/-- The position one character back from another one, against the given direction. -/
def stepBack (heading : Heading) (position : Nat) : Nat :=
  match heading with
  | .forward => position - 1
  | .backward => position + 1

/-- The character before a position, if there is one, is part of a word. -/
def wordBefore (text : Array Char) (position : Nat) : Bool :=
  match nextChar text .backward position with
  | some (c, _) => Unicode.isWordChar c
  | none => false

/-- The character behind a position, if there is one, is part of a word. -/
def wordBehind (text : Array Char) (position : Nat) : Bool :=
  match nextChar text .forward position with
  | some (c, _) => Unicode.isWordChar c
  | none => false

/-- The condition holds at a position. -/
def Anchor.holds (text : Array Char) (start position : Nat) : Anchor → Bool
  | .textStart => position = 0
  | .textEnd => text.size ≤ position
  | .lastLineEnd =>
    text.size ≤ position || (text.size = position + 1 && text[position]? = some '\n')
  | .lineStart => position = 0 || text[position - 1]? = some '\n'
  | .lineEnd => text.size ≤ position || text[position]? = some '\n'
  | .searchStart => position = start
  | .wordBoundary => wordBefore text position != wordBehind text position
  | .notWordBoundary => wordBefore text position == wordBehind text position

/-- The position behind a stretch that repeats a captured one, read in the given direction. -/
def readAgain (text : Array Char) (mode : Mode) (start length position : Nat) : Option Nat :=
  let same := fun (from' : Nat) => (List.range length).all fun i =>
    match text[start + i]?, text[from' + i]? with
    | some a, some b => compared mode.ignoreCase a = compared mode.ignoreCase b
    | _, _ => false
  match mode.heading with
  | .forward => if same position then some (position + length) else none
  | .backward =>
    if length ≤ position ∧ same (position - length) then some (position - length) else none

/-- A step on a run of characters: those that it needs, and then as many as it can take or none. -/
def stepMany (text : Array Char) (m : Machine) (rest : List Task) (test : Single) (mode : Mode)
    (bounds : Bounds) (lazy : Bool) : Outcome :=
  let here := m.current.position
  if available text mode.heading here < bounds.least then m.fail
  else
    let (start, count) := readMany text test mode bounds.least here
    if count < bounds.least then m.fail
    else
      let more := min (bounds.most - bounds.least) (available text mode.heading start)
      if lazy then
        let m := m.moveTo start
        match more with
        | 0 => .running (m.withTasks rest)
        | left + 1 => .running ((m.putOff (.takeMore test mode left :: rest)).withTasks rest)
      else
        let (stop, taken) := readMany text test mode more start
        match taken with
        | 0 => .running ((m.moveTo stop).withTasks rest)
        | left + 1 =>
          let shorter := (m.moveTo (stepBack mode.heading stop)).putOff
            (.giveBack mode.heading left :: rest)
          .running ((shorter.moveTo stop).withTasks rest)

/-- A step on an expression. -/
def stepRegex (text : Array Char) (start : Nat) (m : Machine) (rest : List Task) : Regex → Outcome
  | .nothing => m.fail
  | .empty => .running (m.withTasks rest)
  | .single test mode =>
    match readOne text test mode m.current.position with
    | some next => .running ((m.withTasks rest).moveTo next)
    | none => m.fail
  | .many test mode bounds lazy => stepMany text m rest test mode bounds lazy
  | .anchor a =>
    if a.holds text start m.current.position then .running (m.withTasks rest) else m.fail
  | .seq first second => .running (m.withTasks (.run first :: .run second :: rest))
  | .alt first second =>
    .running ((m.putOff (.run second :: rest)).withTasks (.run first :: rest))
  | .loop body bounds lazy =>
    let begun : Int := if bounds.least = 0 then -1 else m.current.position
    let counted := bounds.most < unbounded || 1 < bounds.least
    let limit := if bounds.most = unbounded then unbounded else bounds.most - bounds.least
    let decide : Task := if counted then .againCounted body limit lazy else .again body lazy
    let tasks := if bounds.least = 0 then decide :: rest else .run body :: decide :: rest
    let count : Int := if bounds.least = 0 then 0 else 1 - bounds.least
    let stack := if counted then count :: begun :: m.current.stack else begun :: m.current.stack
    .running ((m.withTasks tasks).withStack stack)
  | .capture number release body =>
    .running ((m.withTasks (.run body :: .capture number release :: rest)).withStack
      (m.current.position :: m.current.stack))
  | .reference number mode =>
    match m.current.captures.stretch? number with
    | none => m.fail
    | some (first, length) =>
      match readAgain text mode first.toNat length.toNat m.current.position with
      | some next => .running ((m.withTasks rest).moveTo next)
      | none => m.fail
  | .look false body =>
    .running ((m.withTasks (.run body :: .goBack m.alternatives.length :: rest)).withStack
      (m.current.position :: m.current.stack))
  | .look true body =>
    .running ((m.putOff rest).withTasks (.run body :: .refuse m.alternatives.length :: rest))
  | .atomic body =>
    .running (m.withTasks (.run body :: .commit m.alternatives.length :: rest))
  | .ifCaptured number yes no =>
    if (m.current.captures.latest? number).isSome then .running (m.withTasks (.run yes :: rest))
    else .running (m.withTasks (.run no :: rest))
  | .ifMatches condition yes no =>
    .running (((m.putOff (.run no :: rest)).withTasks
      (.run condition :: .goBack m.alternatives.length :: .run yes :: rest)).withStack
      (m.current.position :: m.current.stack))

/-- The decision on another iteration of a loop without a bound. -/
def stepAgain (m : Machine) (rest : List Task) (body : Regex) (lazy : Bool) : Outcome :=
  let here : Int := m.current.position
  let iteration : List Task := .run body :: .again body lazy :: rest
  match m.current.stack with
  | [] => m.fail
  | mark :: below =>
    if here = mark then
      .running ((m.withTasks rest).withStack (if lazy then mark :: below else below))
    else if lazy then
      .running ((((m.withStack (here :: below)).putOff iteration).withTasks rest).withStack below)
    else
      .running ((((m.withStack below).putOff rest).withTasks iteration).withStack (here :: below))

/-- The decision on another iteration of a loop with a bound. -/
def stepAgainCounted (m : Machine) (rest : List Task) (body : Regex) (limit : Nat) (lazy : Bool) :
    Outcome :=
  let here : Int := m.current.position
  let iteration : List Task := .run body :: .againCounted body limit lazy :: rest
  match m.current.stack with
  | count :: mark :: below =>
    let next := (count + 1) :: here :: below
    if count < 0 then .running ((m.withTasks iteration).withStack next)
    else if limit ≤ count || here = mark then .running ((m.withTasks rest).withStack below)
    else if lazy then
      .running ((((m.withStack next).putOff iteration).withTasks rest).withStack below)
    else
      .running ((((m.withStack below).putOff rest).withTasks iteration).withStack next)
  | _ => m.fail

/-- One step of the machine. -/
def step (text : Array Char) (start : Nat) (m : Machine) : Outcome :=
  match m.current.tasks with
  | [] => .matched
  | .run r :: rest => stepRegex text start m rest r
  | .again body lazy :: rest => stepAgain m rest body lazy
  | .againCounted body limit lazy :: rest => stepAgainCounted m rest body limit lazy
  | .giveBack heading left :: rest =>
    match left with
    | 0 => .running (m.withTasks rest)
    | fewer + 1 =>
      let shorter := (m.moveTo (stepBack heading m.current.position)).putOff
        (.giveBack heading fewer :: rest)
      .running ((shorter.moveTo m.current.position).withTasks rest)
  | .takeMore test mode left :: rest =>
    match readOne text test mode m.current.position with
    | none => m.fail
    | some next =>
      let m := m.moveTo next
      match left with
      | 0 => .running (m.withTasks rest)
      | fewer + 1 => .running ((m.putOff (.takeMore test mode fewer :: rest)).withTasks rest)
  | .capture number release :: rest =>
    match m.current.stack with
    | [] => m.fail
    | mark :: below =>
      match m.current.captures.add number release mark m.current.position with
      | some captures =>
        .running { m with current :=
          { m.current with tasks := rest, stack := below, captures := captures } }
      | none => m.fail
  | .commit height :: rest => .running ((m.forget height).withTasks rest)
  | .goBack height :: rest =>
    match m.current.stack with
    | [] => m.fail
    | mark :: below =>
      .running ((((m.forget height).withTasks rest).moveTo mark.toNat).withStack below)
  | .refuse height :: _ => (m.forget height).fail

/-- Steps until the machine stops, at most `fuel` of them; `none` if it has not stopped by then. -/
def runSteps (text : Array Char) (start : Nat) : (fuel : Nat) → Machine → Option Bool
  | 0, _ => none
  | fuel + 1, m =>
    match step text start m with
    | .running next => runSteps text start fuel next
    | .matched => some true
    | .failed => some false

/-- After how many steps a match is given up. It stands for the bound on the time of one match, which
is 100 milliseconds: a match that takes longer counts as none. Steps are not timed, so near the bound
one of the two may give up where the other does not. What is proved of matches is said of those that
come to an end. -/
def maxSteps : Nat := 20000000

/-- The machine that is about to match an expression from a position. -/
def Machine.start (r : Regex) (position : Nat) : Machine := ⟨⟨[.run r], position, [], []⟩, []⟩

/-- The expression matches some stretch of the text that starts at the given position. -/
def Regex.matchesAt (r : Regex) (text : Array Char) (position : Nat) : Option Bool :=
  runSteps text position maxSteps (Machine.start r position)

/-- The expression matches some stretch of the text. Positions are tried from left to right, until
one matches or the time is up. -/
def Regex.findFrom (r : Regex) (text : Array Char) : (remaining position : Nat) → Bool
  | 0, position => r.matchesAt text position = some true
  | remaining + 1, position =>
    match r.matchesAt text position with
    | some true => true
    | some false => r.findFrom text remaining (position + 1)
    | none => false

/-- The expression matches some stretch of the text. -/
def Regex.isFoundIn (r : Regex) (text : List Char) : Bool :=
  r.findFrom text.toArray text.length 0

end PackageCycles.Pattern
