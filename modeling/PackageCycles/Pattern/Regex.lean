import PackageCycles.Pattern.CharSet

/-!
# Regular expressions

The expressions that patterns denote: single characters, anchors, sequences, alternatives, greedy
and lazy repetition, captured groups and references to them, lookaround, atomic groups and
conditionals. Inside a lookbehind the text is read backwards; the parts that read a character say in
which direction.

Expressions are put together by `sequence`, `alternatives` and `times`, which simplify what they are
given. The simplifications are part of what a pattern means: alternatives that are single characters
are made one set (`merge?`), in which the order of the classes counts, and a repetition of a
repetition is made one repetition with the products of the bounds (`multiplied`).

The reading of patterns and the search for them are those of a library, which is followed in all
that names of packages can show. What exclusion relies on is less, and stated in
`Pattern.LawfulEngine`.
-/

namespace PackageCycles.Pattern

/-- The direction in which text is read. -/
inductive Heading where
  | forward
  | backward
  deriving DecidableEq

/-- How characters are read. -/
structure Mode where
  /-- Lower case forms are compared. -/
  ignoreCase : Bool
  /-- The direction. -/
  heading : Heading
  deriving DecidableEq

/-- A test of one character. -/
inductive Single where
  /-- The character with the given code point. -/
  | literal (code : Nat)
  /-- Any character but one. -/
  | other (code : Nat)
  /-- A member of a set. -/
  | oneOf (set : CharSet)
  deriving DecidableEq

/-- The character passes the test. -/
def Single.accepts : Single → Char → Bool
  | .literal code, c => c.toNat = code
  | .other code, c => c.toNat ≠ code
  | .oneOf set, c => set.has c

/-- What the test lists, if it is neither negated nor has something taken away. -/
def Single.group? : Single → Option CharGroup
  | .literal code => some (CharGroup.empty.addRange code code)
  | .oneOf (.plain group) => if group.negated then none else some group
  | _ => none

/-- Conditions on a position. -/
inductive Anchor where
  /-- At the start of the text. -/
  | textStart
  /-- At the end of the text. -/
  | textEnd
  /-- At the end of the text or before a newline that ends it. -/
  | lastLineEnd
  /-- At the start of a line. -/
  | lineStart
  /-- At the end of a line. -/
  | lineEnd
  /-- Where the search starts. -/
  | searchStart
  /-- Between a character of a word and something else. -/
  | wordBoundary
  /-- Not at a word boundary. -/
  | notWordBoundary
  deriving DecidableEq

/-- How often something is repeated. -/
structure Bounds where
  /-- At least. -/
  least : Nat
  /-- At most. -/
  most : Nat
  deriving DecidableEq

/-- The number that stands for no bound. -/
def unbounded : Nat := 2147483647

/-- Regular expressions. -/
inductive Regex where
  /-- Never matches. -/
  | nothing
  /-- Matches without reading anything. -/
  | empty
  /-- One character. -/
  | single (test : Single) (mode : Mode)
  /-- A run of characters that pass the same test, as long as possible or as short. -/
  | many (test : Single) (mode : Mode) (bounds : Bounds) (lazy : Bool)
  /-- A condition on the position. -/
  | anchor (a : Anchor)
  /-- One after the other. -/
  | seq (first second : Regex)
  /-- The first, and if that leads nowhere the second. -/
  | alt (first second : Regex)
  /-- The body again and again, as often as possible or as rarely. -/
  | loop (body : Regex) (bounds : Bounds) (lazy : Bool)
  /-- Captures what the body matches under `number`, after releasing the latest capture of
  `release`. -/
  | capture (number release : Option Nat) (body : Regex)
  /-- What was captured last under a number. -/
  | reference (number : Nat) (mode : Mode)
  /-- The body matches here, or does not, without reading anything. -/
  | look (negative : Bool) (body : Regex)
  /-- The first way in which the body matches, and no other. -/
  | atomic (body : Regex)
  /-- One or the other, depending on whether the number has a capture. -/
  | ifCaptured (number : Nat) (yes no : Regex)
  /-- One or the other, depending on whether the condition matches here. -/
  | ifMatches (condition yes no : Regex)
  deriving DecidableEq

/-- The product of two numbers of repetitions. -/
def timesBound (a b : Nat) : Nat :=
  if a = 0 then 0 else if (unbounded - 1) / a < b then unbounded else a * b

/-- The bounds of a repetition of something that is itself repeated, unless that would allow numbers
of repetitions that the two do not allow together: the inner ones have to overlap. -/
def Bounds.multiplied (outer inner : Bounds) : Option Bounds :=
  if (outer.least = 0 ∧ 1 < inner.least) ∨ inner.most < inner.least * 2 then none
  else some ⟨timesBound inner.least outer.least, timesBound inner.most outer.most⟩

namespace Regex

/-- The expressions in the order in which they are met when reading in the given direction. -/
def sequence (heading : Heading) (parts : List Regex) : Regex :=
  let parts := parts.filter (· ≠ .empty)
  let ordered := match heading with
    | .forward => parts
    | .backward => parts.reverse
  match ordered with
  | [] => .empty
  | first :: rest => rest.foldl .seq first

/-- The alternatives that an expression consists of. -/
def choices : Regex → List Regex
  | .alt first second => first.choices ++ second.choices
  | r => [r]

/-- Two neighbouring alternatives as one. They have to be single characters that are read in the
same way; the first one's classes come first. -/
def merge? : Regex → Regex → Option Regex
  | .single first mode, .single second mode' =>
    match first.group?, second.group? with
    | some g, some h =>
      if mode = mode' then some (.single (.oneOf (.plain (g.addGroup h))) mode) else none
    | _, _ => none
  | _, _ => none

/-- The alternatives with neighbours made one where they can be, in reverse order; `merged` are
those before, the latest first. -/
def mergeOnto (merged : List Regex) : List Regex → List Regex
  | [] => merged
  | r :: rest =>
    match merged with
    | [] => mergeOnto [r] rest
    | last :: before =>
      match last.merge? r with
      | some both => mergeOnto (both :: before) rest
      | none => mergeOnto (r :: merged) rest

/-- The first of the expressions that leads on. -/
def firstOf : List Regex → Regex
  | [] => .nothing
  | [r] => r
  | r :: rest => .alt r (firstOf rest)

/-- The first of the expressions that leads on. -/
def alternatives (rs : List Regex) : Regex :=
  firstOf (mergeOnto [] ((rs.flatMap choices).filter (· ≠ .nothing))).reverse

/-- The body again and again. -/
def looped (body : Regex) (bounds : Bounds) (lazy : Bool) : Regex :=
  if bounds.least = unbounded then .nothing
  else
    let plain := loop body bounds lazy
    match body with
    | .loop inner innerBounds innerLazy =>
      if innerLazy = lazy then
        ((bounds.multiplied innerBounds).map (.loop inner · lazy)).getD plain
      else plain
    | .many test mode innerBounds innerLazy =>
      if innerLazy = lazy then
        ((bounds.multiplied innerBounds).map (.many test mode · lazy)).getD plain
      else plain
    | _ => plain

/-- The expression repeated; once is the expression itself, and never is nothing at all. A single
character that is not in parentheses gives a run. -/
def times (body : Regex) (grouped : Bool) (bounds : Bounds) (lazy : Bool) : Regex :=
  if bounds = ⟨0, 0⟩ then .empty
  else if bounds = ⟨1, 1⟩ then body
  else match body, grouped with
    | .single test mode, false => .many test mode bounds lazy
    | _, _ => body.looped bounds lazy

end Regex

end PackageCycles.Pattern
