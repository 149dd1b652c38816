/-!
# Text

Names, paths, file contents and messages are kept as their bytes, because package names are
compared byte by byte and a source file may hold bytes that are no valid UTF-8. `Text` is that list
of bytes, `Text.ofString` the text of a string literal, and the operations here are the few that
every other module uses: joining, splitting at a byte, cutting at the last occurrence of a byte and
writing numbers in decimal.
-/

namespace PackageCycles

/-- Text as its bytes, in UTF-8 wherever it is valid. Texts are ordered as lists of bytes. -/
abbrev Text := List UInt8

namespace Text

/-- The UTF-8 encoding of a list of characters. -/
def ofChars (cs : List Char) : Text := cs.flatMap String.utf8EncodeChar

/-- The UTF-8 encoding of a string. -/
def ofString (s : String) : Text := ofChars s.toList

instance : Coe String Text := ⟨ofString⟩

/-- The byte of an ASCII character. -/
def byte (c : Char) : UInt8 := c.val.toUInt8

/-- The texts one after the other with `separator` between neighbours. -/
def join (separator : Text) (parts : List Text) : Text := separator.intercalate parts

/-- The stretches of `s` between the occurrences of `separator`: one more than there are
occurrences, so the empty text has the one stretch `[]`. -/
def splitOn (separator : UInt8) (s : Text) : List Text :=
  s.foldr
    (fun b parts =>
      if b = separator then [] :: parts
      else match parts with
        | [] => [[b]]
        | part :: rest => (b :: part) :: rest)
    [[]]

/-- The bytes before the last occurrence of `mark`, if there is one. -/
def beforeLast? (mark : UInt8) (s : Text) : Option Text :=
  match s.reverse.dropWhile (· ≠ mark) with
  | [] => none
  | _ :: before => some before.reverse

/-- The bytes after the last occurrence of `mark`, or all of them if there is none. -/
def afterLast (mark : UInt8) (s : Text) : Text :=
  (s.reverse.takeWhile (· ≠ mark)).reverse

/-- `part` occurs in `s` as consecutive bytes. -/
def hasInfix (part : Text) : Text → Bool
  | [] => part.isEmpty
  | b :: rest => part.isPrefixOf (b :: rest) || hasInfix part rest

/-- A natural number in decimal. -/
def ofNat (n : Nat) : Text := ofChars (Nat.toDigits 10 n)

/-- An integer in decimal, with a minus sign if it is negative. -/
def ofInt : Int → Text
  | .ofNat n => ofNat n
  | .negSucc n => byte '-' :: ofNat (n + 1)

/-- `true` or `false`. -/
def ofBool (b : Bool) : Text := if b then "true" else "false"

/-- `s` followed by as many spaces as it takes to make it `width` bytes long. -/
def padRight (width : Nat) (s : Text) : Text := s ++ List.replicate (width - s.length) (byte ' ')

end Text

end PackageCycles
