import PackageCycles.Text.Utf8
import PackageCycles.Unicode.Category

/-!
# Quoted text

A text is quoted so that it stands on one line and can be told from every other text: it is put
between double quotes, the double quote and the backslash get a backslash in front, and what cannot
be printed is written as an escape sequence. A byte that belongs to no character is written as
`\x` and its two digits, so two texts with the same quoted form are equal.
-/

namespace PackageCycles.Text

/-- The lower case hexadecimal digits of `n`, at least `width` of them. -/
def hex (width n : Nat) : Text :=
  let digits := Nat.toDigits 16 n
  ofChars (List.replicate (width - digits.length) '0' ++ digits)

/-- The letter of the short escape sequence of a control character, if it has one. -/
def shortEscape? (c : Char) : Option Char :=
  match c.toNat with
  | 7 => some 'a'
  | 8 => some 'b'
  | 9 => some 't'
  | 10 => some 'n'
  | 11 => some 'v'
  | 12 => some 'f'
  | 13 => some 'r'
  | _ => none

/-- A character or stray byte as it is written between double quotes. -/
def quotePiece : Piece → Text
  | .stray b => "\\x" ++ hex 2 b.toNat
  | .char c =>
    if c = '"' || c = '\\' then ofChars ['\\', c]
    else if Unicode.isPrintable c then ofChars [c]
    else match shortEscape? c with
      | some letter => ofChars ['\\', letter]
      | none =>
        if c.toNat < 0x20 || c.toNat = 0x7F then "\\x" ++ hex 2 c.toNat
        else if c.toNat < 0x10000 then "\\u" ++ hex 4 c.toNat
        else "\\U" ++ hex 8 c.toNat

/-- The text between double quotes. -/
def quoted (s : Text) : Text := "\"" ++ s.pieces.flatMap quotePiece ++ "\""

end PackageCycles.Text
