import PackageCycles.Pattern.CaseTable
import PackageCycles.Text.Blank
import PackageCycles.Unicode.Lower
import PackageCycles.Unicode.Property

/-!
# Character sets

The bracket expressions of a pattern. A set lists ranges and classes; a character outside all ranges
is settled by the first class that has an opinion on it: a class holds for its members, a negated
class holds for all others and fails for its members. The whole may be negated, and another set may
be taken away from it. When case is ignored the set is asked about lower case forms, and before that
its ranges are extended by theirs (`CharGroup.lowered`).

Ranges are kept in increasing order, and ranges that touch are made one. Code points are numbers
here, because a pattern can name surrogates, which are no characters; no character equals one.
-/

namespace PackageCycles.Pattern

/-- The classes that a set may name. -/
inductive ClassTest where
  /-- The blank characters. -/
  | blank
  /-- The characters of words. -/
  | word
  /-- The characters with a Unicode property. -/
  | property (p : Unicode.Property)
  deriving DecidableEq

/-- The character belongs to the class. -/
def ClassTest.has : ClassTest → Char → Bool
  | .blank, c => Text.isBlankChar c
  | .word, c => Unicode.isWordChar c
  | .property p, c => p.has c

/-- A class or all but a class. -/
structure ClassTerm where
  /-- The class. -/
  test : ClassTest
  /-- All but the class is meant. -/
  negated : Bool
  deriving DecidableEq

/-- Adds a range to ranges in increasing order of which no two touch. -/
def insertRange (first last : Nat) : List (Nat × Nat) → List (Nat × Nat)
  | [] => [(first, last)]
  | (low, high) :: rest =>
    if last + 1 < low then (first, last) :: (low, high) :: rest
    else if high + 1 < first then (low, high) :: insertRange first last rest
    else insertRange (min first low) (max last high) rest

/-- A set without subtraction. -/
structure CharGroup where
  /-- The set holds for what is not listed. -/
  negated : Bool
  /-- A class and its opposite were listed, so that nothing can be added. -/
  everything : Bool
  /-- The ranges, each by its first and last code point. -/
  ranges : List (Nat × Nat)
  /-- The classes in the order in which they were listed. -/
  classes : List ClassTerm
  deriving DecidableEq

namespace CharGroup

/-- The set that lists nothing. -/
def empty : CharGroup := ⟨false, false, [], []⟩

/-- The set of one class. -/
def ofClass (test : ClassTest) (negated : Bool) : CharGroup :=
  { empty with classes := [⟨test, negated⟩] }

/-- The greatest code point. -/
def maxCode : Nat := 0x10FFFF

/-- The set of all characters. -/
def all : CharGroup := { empty with ranges := [(0, maxCode)] }

/-- The set with a range added. -/
def addRange (g : CharGroup) (first last : Nat) : CharGroup :=
  { g with ranges := insertRange first last g.ranges }

/-- The set with some ranges added. -/
def addRanges (g : CharGroup) (ranges : List (Nat × Nat)) : CharGroup :=
  ranges.foldl (fun g (first, last) => g.addRange first last) g

/-- The set with a class added. -/
def addClass (g : CharGroup) (term : ClassTerm) : CharGroup :=
  if g.everything || g.classes.contains term then g
  else if g.classes.contains { term with negated := !term.negated } then
    { g with everything := true, classes := [], ranges := all.ranges }
  else { g with classes := g.classes ++ [term] }

/-- The set with a property added. When case is ignored, the three cases of letters stand for each
other. -/
def addProperty (g : CharGroup) (p : Unicode.Property) (negated ignoreCase : Bool) : CharGroup :=
  let cased : List Unicode.Property := [.category .ll, .category .lu, .category .lt]
  let g := if ignoreCase && cased.contains p then
      cased.foldl (fun g q => g.addClass ⟨.property q, negated⟩) g
    else g
  g.addClass ⟨.property p, negated⟩

/-- The set with all that another one lists. -/
def addGroup (g other : CharGroup) : CharGroup :=
  if g.everything then g else other.classes.foldl addClass (g.addRanges other.ranges)

/-- The set as it is asked about lower case forms. A range of one character becomes that of its
lower case form; longer ranges are extended. -/
def lowered (g : CharGroup) : CharGroup :=
  if g.everything then g
  else
    let forms := g.ranges.flatMap fun (first, last) =>
      if first = last then [(Unicode.lowerCode first, Unicode.lowerCode first)]
      else (first, last) :: loweredRanges first last
    { g with ranges := [] }.addRanges forms

/-- The code point lies in one of the ranges. -/
def inRanges (g : CharGroup) (code : Nat) : Bool :=
  g.ranges.any fun (first, last) => first ≤ code && code ≤ last

/-- What the first class with an opinion says of the character. -/
def inClasses (c : Char) : List ClassTerm → Bool
  | [] => false
  | term :: rest =>
    if term.test.has c then !term.negated
    else if term.negated then true
    else inClasses c rest

/-- The character belongs to the set. -/
def has (g : CharGroup) (c : Char) : Bool :=
  (g.inRanges c.toNat || inClasses c g.classes) != g.negated

end CharGroup

/-- A set, or what is left of a set when another one is taken away. -/
inductive CharSet where
  | plain (group : CharGroup)
  | minus (group : CharGroup) (removed : CharSet)
  deriving DecidableEq

/-- The character belongs to the set. -/
def CharSet.has : CharSet → Char → Bool
  | .plain group, c => group.has c
  | .minus group removed, c => group.has c && !removed.has c

end PackageCycles.Pattern
