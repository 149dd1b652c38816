import PackageCycles.Integer

/-!
# What a plain scalar stands for

A scalar without quotes and without a tag stands for null, a truth value, an integer, a
floating-point number, a date or, if it looks like none of these, for its own text. A tag says what
it has to stand for.
-/

namespace PackageCycles.Yaml

/-- The value of a scalar. -/
inductive Resolved where
  | null
  | bool (b : Bool)
  | int (n : Int)
  | float (x : Float)
  | timestamp
  | text

/-- The tags of the values. -/
def Resolved.tag : Resolved → Text
  | .null => "!!null"
  | .bool _ => "!!bool"
  | .int _ => "!!int"
  | .float _ => "!!float"
  | .timestamp => "!!timestamp"
  | .text => "!!str"

/-! ## Floating-point numbers -/

/-- An ASCII digit. -/
def isDigit (b : UInt8) : Bool := Text.byte '0' ≤ b && b ≤ Text.byte '9'

/-- The number that digits stand for. -/
def decimal (digits : Text) : Nat := digits.foldl (fun n b => n * 10 + (b.toNat - 48)) 0

/-- The decimal number `mantissa * 10 ^ exponent`, unless it is too large. -/
def scientific? (negative : Bool) (mantissa : Nat) (exponent : Int) : Option Float :=
  let magnitude : Int := (Nat.toDigits 10 mantissa).length + exponent
  let x? : Option Float :=
    if mantissa = 0 || magnitude < -400 then some 0
    else if 400 < magnitude then none
    else
      let x := Float.ofScientific mantissa (exponent < 0) exponent.natAbs
      if x.isInf then none else some x
  x?.map fun x => if negative then -x else x

/-- The exponent of a decimal number: nothing, or the letter with an integer. -/
def exponent? : Text → Option Int
  | [] => some 0
  | e :: rest =>
    if e ≠ Text.byte 'e' ∧ e ≠ Text.byte 'E' then none
    else
      let (negative, digits) := Integer.sign rest
      if digits = [] ∨ !digits.all isDigit then none
      else some (if negative then -(decimal digits : Int) else decimal digits)

/-- The decimal floating-point number that a text stands for. -/
def float? (s : Text) : Option Float :=
  let (negative, body) := Integer.sign s
  let whole := body.takeWhile isDigit
  let rest := body.dropWhile isDigit
  let (fraction, rest) := match rest with
    | b :: more =>
      if b = Text.byte '.' then (more.takeWhile isDigit, more.dropWhile isDigit) else ([], rest)
    | [] => ([], [])
  if whole = [] ∧ fraction = [] then none
  else (exponent? rest).bind fun exponent =>
    scientific? negative (decimal (whole ++ fraction)) (exponent - fraction.length)

/-! ## Dates -/

/-- A number of one or two digits at the start of a text, and what follows it. -/
def shortNumber? (s : Text) : Option (Nat × Text) :=
  let digits := (s.take 2).takeWhile isDigit
  if digits = [] then none else some (decimal digits, s.drop digits.length)

/-- What follows a character. -/
def after? (c : Char) : Text → Option Text
  | [] => none
  | b :: rest => if b = Text.byte c then some rest else none

/-- The number of days in a month. -/
def daysIn (year month : Nat) : Nat :=
  if month = 2 then
    (if year % 4 = 0 ∧ (year % 100 ≠ 0 ∨ year % 400 = 0) then 29 else 28)
  else if month = 4 ∨ month = 6 ∨ month = 9 ∨ month = 11 then 30
  else 31

/-- What follows a date. -/
def afterDate? (s : Text) : Option Text := do
  let year := s.takeWhile isDigit
  guard (year.length = 4)
  let (month, s) ← shortNumber? (← after? '-' (s.drop 4))
  let (day, s) ← shortNumber? (← after? '-' s)
  guard (1 ≤ month ∧ month ≤ 12 ∧ 1 ≤ day ∧ day ≤ daysIn (decimal year) month)
  return s

/-- What follows a time of day. -/
def afterTime? (s : Text) : Option Text := do
  let (hour, s) ← shortNumber? s
  let (minute, s) ← shortNumber? (← after? ':' s)
  let (second, s) ← shortNumber? (← after? ':' s)
  guard (hour < 24 ∧ minute < 60 ∧ second < 60)
  match s with
  | point :: d :: _ =>
    if (point = Text.byte '.' ∨ point = Text.byte ',') ∧ isDigit d then
      return (s.drop 1).dropWhile isDigit
    else return s
  | _ => return s

/-- The text is a time zone. -/
def isZone (s : Text) : Bool :=
  match s with
  | [z] => z = Text.byte 'Z'
  | [sign, h1, h2, colon, m1, m2] =>
    (sign = Text.byte '+' || sign = Text.byte '-') && colon = Text.byte ':' &&
      [h1, h2, m1, m2].all isDigit && decimal [h1, h2] ≤ 24 && decimal [m1, m2] ≤ 60
  | _ => false

/-- The text is a date, perhaps with a time of day. -/
def isTimestamp (s : Text) : Bool :=
  match afterDate? s with
  | none => false
  | some [] => true
  | some (b :: rest) =>
    if b = Text.byte ' ' then afterTime? (rest.dropWhile (· = Text.byte ' ')) = some []
    else (b = Text.byte 'T' || b = Text.byte 't') && ((afterTime? rest).map isZone).getD false

/-! ## Resolution -/

/-- The words that stand for a value. -/
def words : List (Text × Resolved) :=
  let infinity : Float := 1.0 / 0.0
  [("true", .bool true), ("True", .bool true), ("TRUE", .bool true),
   ("false", .bool false), ("False", .bool false), ("FALSE", .bool false),
   ("", .null), ("~", .null), ("null", .null), ("Null", .null), ("NULL", .null),
   (".nan", .float (0.0 / 0.0)), (".NaN", .float (0.0 / 0.0)), (".NAN", .float (0.0 / 0.0)),
   (".inf", .float infinity), (".Inf", .float infinity), (".INF", .float infinity),
   ("+.inf", .float infinity), ("+.Inf", .float infinity), ("+.INF", .float infinity),
   ("-.inf", .float (-infinity)), ("-.Inf", .float (-infinity)), ("-.INF", .float (-infinity))]

/-- The integer or floating-point number that a text stands for. Underscores are left out. -/
def number? (s : Text) : Option Resolved :=
  let plain := s.filter (· ≠ Text.byte '_')
  let based := fun (marker : Text) (base : Nat) =>
    if marker.isPrefixOf plain then (Integer.parse base (plain.drop 2)).toOption
    else if ((Text.byte '-') :: marker).isPrefixOf plain then
      (Integer.parse base (Text.byte '-' :: plain.drop 3)).toOption
    else none
  match Integer.parseLiteral plain with
  | .ok n => some (.int n)
  | .error _ =>
    match Integer.unsignedLiteral plain with
    | .ok n => some (.int n)
    | .error _ =>
      match float? plain with
      | some x => some (.float x)
      | none => ((based "0b" 2).or (based "0o" 8)).map .int

/-- What a text stands for. A date is only looked for if `dates` is set. -/
def resolve (dates : Bool) (s : Text) : Resolved :=
  match words.lookup s with
  | some value => value
  | none =>
    match s with
    | [] => .null
    | b :: _ =>
      if b = Text.byte '.' then
        if s.contains (Text.byte '_') && !Integer.underscoresFit false .nothing s then .text
        else match float? (s.filter (· ≠ Text.byte '_')) with
          | some x => .float x
          | none => .text
      else if isDigit b || b = Text.byte '+' || b = Text.byte '-' then
        if dates && isTimestamp s then .timestamp
        else (number? s).getD .text
      else .text

/-- The tags that say what a scalar has to stand for. -/
def isResolvable (tag : Text) : Bool :=
  ([("!!str" : Text), "!!bool", "!!int", "!!float", "!!null", "!!timestamp"]).contains tag

/-- What a scalar with a tag stands for; none if that is not what the tag says. A tag without a
meaning leaves the text as it is. -/
def resolveTagged (tag s : Text) : Option Resolved :=
  if tag = "!!str" ∨ !isResolvable tag then some .text
  else
    let value := resolve (tag = "!!timestamp") s
    if value.tag = tag then some value
    else match value with
      | .int n =>
        if tag = "!!float" ∧ n ≤ Integer.greatest then some (.float (Float.ofInt n)) else none
      | _ => none

/-- A truth value written as a word that does not stand for one by itself. -/
def looseBool? (s : Text) : Option Bool :=
  if ([("y" : Text), "Y", "yes", "Yes", "YES", "on", "On", "ON"]).contains s then some true
  else if ([("n" : Text), "N", "no", "No", "NO", "off", "Off", "OFF"]).contains s then some false
  else none

/-- The integer that a floating-point number is cut off to; none if the number is too large. Numbers
below all integers give the least one, as does the power of two just above them. -/
def truncate? (x : Float) : Option Int :=
  if x ≤ 9223372036854775808.0 then
    if x < -9223372036854775808.0 || x == 9223372036854775808.0 then some Integer.least
    else some x.toInt64.toInt
  else none

end PackageCycles.Yaml
