/-!
# Captures

The captures made during a match, the latest first. Each has the number of its group and two numbers
that say where it is: a start and a length. Releasing the latest capture of a group does not take it
away but adds an entry that leads to the capture before it. The numbers of all entries of a group
count as one row, the oldest entry first and its start before its length, and a negative number `n`
in an entry refers to the number at the place `-3 - n` of the row. Places `-2` and `-1` lie before
the row: an entry that leads there says that no capture is left.
-/

namespace PackageCycles.Pattern

/-- An entry of the captures. -/
structure Capture where
  /-- The number of the group. -/
  number : Nat
  /-- Where the captured stretch starts. -/
  start : Int
  /-- How long it is. -/
  length : Int
  deriving DecidableEq

/-- The captures, the latest first. -/
abbrev Captures := List Capture

namespace Captures

/-- The numbers of a group in a row. -/
def row (cs : Captures) (number : Nat) : List Int :=
  cs.reverse.flatMap fun c => if c.number = number then [c.start, c.length] else []

/-- The number at a place of the row of a group; beyond the row there are zeros. -/
def numberAt (cs : Captures) (number : Nat) (place : Int) : Int :=
  if place < 0 then 0 else ((cs.row number)[place.toNat]?).getD 0

/-- The number that an entry of a group has or refers to. -/
def resolve (cs : Captures) (number : Nat) (n : Int) : Int :=
  if n < 0 then cs.numberAt number (-3 - n) else n

/-- The latest entry of a group, if it has a capture. -/
def latest? (cs : Captures) (number : Nat) : Option Capture :=
  match cs.find? (·.number = number) with
  | some c => if c.length = -2 then none else some c
  | none => none

/-- The start and the length of the latest capture of a group. -/
def stretch? (cs : Captures) (number : Nat) : Option (Int × Int) :=
  (cs.latest? number).map fun c => (cs.resolve number c.start, cs.resolve number c.length)

/-- The captures with the latest one of a group released. -/
def release (cs : Captures) (number : Nat) : Captures :=
  let row := cs.row number
  let last : Int := row.length - 2
  let current := if cs.numberAt number last < 0 then -3 - cs.numberAt number last else last
  let before := current - 2
  if 0 ≤ before ∧ cs.numberAt number before < 0 then
    ⟨number, cs.numberAt number before, cs.numberAt number (before + 1)⟩ :: cs
  else ⟨number, -3 - before, -4 - before⟩ :: cs

/-- The captures after the text between two positions has been captured under `number`. Releasing a
capture pairs the new stretch with the released one: what is captured then lies between them, or is
what they have in common. It fails if there is nothing to release. -/
def add (cs : Captures) (number released : Option Nat) (a b : Int) : Option Captures :=
  let start := min a b
  let stop := max a b
  let push := fun (cs : Captures) (start stop : Int) =>
    match number with
    | some n => ⟨n, start, stop - start⟩ :: cs
    | none => cs
  match released with
  | none => some (push cs start stop)
  | some r =>
    match cs.stretch? r with
    | none => none
    | some (oldStart, length) =>
      let oldStop := oldStart + length
      let left := cs.release r
      if oldStop ≤ start then some (push left oldStop start)
      else if stop ≤ oldStart then some (push left oldStart stop)
      else some (push left (max start oldStart) (min stop oldStop))

end Captures

end PackageCycles.Pattern
