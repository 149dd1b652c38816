import PackageCycles.Text.Utf8

/-!
# Words in any case

Levels, formats and truth values may be written in any case, but the words themselves are ASCII.
Two characters beyond ASCII have an ASCII letter as their lower case form: U+0130 (i) and the
Kelvin sign U+212A (k). `Text.lowerWord` therefore maps these and the ASCII capitals and keeps all
else, which decides every comparison with an ASCII word.
-/

namespace PackageCycles.Text

/-- The lower case form of a character as far as it is an ASCII letter, else the character. -/
def lowerChar (c : Char) : Char :=
  if c.toNat = 0x130 then 'i' else if c.toNat = 0x212A then 'k' else c.toLower

/-- The text in lower case, for comparison with an ASCII word. -/
def lowerWord (s : Text) : Text := ofChars (s.toChars.map lowerChar)

end PackageCycles.Text
