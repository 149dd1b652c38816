import PackageCycles.Text.Basic

/-!
# Faults of a pattern

Why a text is no pattern, with the wording of each fault.
-/

namespace PackageCycles.Pattern

/-- What is wrong with a pattern. -/
inductive Fault where
  | unterminatedComment
  | repeatCount
  | numberTooLarge
  | unexpectedParen
  | missingParen
  | missingBrace
  | nestedRepeat
  | missingRepeatArgument
  | tooManyAlternatives
  | unrecognizedGroup (read : List Char)
  | groupName
  | groupZero
  | undefinedNumber (number : Nat)
  | undefinedName (name : List Char)
  | conditionCaptures
  | conditionComment
  | malformedCondition (number : Nat)
  | undefinedCondition (number : Nat)
  | trailingBackslash
  | malformedProperty
  | incompleteProperty
  | unknownProperty (name : List Char)
  | unrecognizedEscape (c : Char)
  | missingControl
  | unrecognizedControl
  | tooFewHex
  | hexTooLarge
  | malformedNameReference
  | classInRange (c : Char)
  | unterminatedSet
  | subtractionNotLast
  | reversedRange (first last : Nat)
  deriving DecidableEq

/-- The character with a code point, as it is shown. Surrogates are shown as U+FFFD. -/
def shownChar (code : Nat) : Char := if code.isValidChar then Char.ofNat code else Char.ofNat 0xFFFD

/-- The wording of a fault. -/
def Fault.message : Fault → Text
  | .unterminatedComment => "unterminated comment"
  | .repeatCount => "invalid repeat count"
  | .numberTooLarge => "capture group number out of range"
  | .unexpectedParen => "unexpected )"
  | .missingParen => "missing closing )"
  | .missingBrace => "missing closing \x7d"
  | .nestedRepeat => "invalid nested repetition operator"
  | .missingRepeatArgument => "missing argument to repetition operator"
  | .tooManyAlternatives => "too many | in (?()|)"
  | .unrecognizedGroup read =>
    ("unrecognized grouping construct: (" : Text) ++ Text.ofChars read
  | .groupName =>
    "invalid group name: group names must begin with a word character and have a matching terminator"
  | .groupZero => "capture number cannot be zero"
  | .undefinedNumber n => ("reference to undefined group number " : Text) ++ Text.ofNat n
  | .undefinedName name => ("reference to undefined group name " : Text) ++ Text.ofChars name
  | .conditionCaptures => "alternation conditions do not capture and cannot be named"
  | .conditionComment => "alternation conditions cannot be comments"
  | .malformedCondition n => ("(?(" : Text) ++ Text.ofNat n ++ ") ) malformed"
  | .undefinedCondition n => ("(?(" : Text) ++ Text.ofNat n ++ ") ) reference to undefined group"
  | .trailingBackslash => "illegal \\ at end of pattern"
  | .malformedProperty => "malformed \\p\x7bX\x7d character escape"
  | .incompleteProperty => "incomplete \\p\x7bX\x7d character escape"
  | .unknownProperty name =>
    ("unknown unicode category, script, or property '" : Text) ++ Text.ofChars name ++ "'"
  | .unrecognizedEscape c => ("unrecognized escape sequence \\" : Text) ++ Text.ofChars [c]
  | .missingControl => "missing control character"
  | .unrecognizedControl => "unrecognized control character"
  | .tooFewHex => "insufficient hexadecimal digits"
  | .hexTooLarge => "hex values may not be larger than 0x10FFFF"
  | .malformedNameReference => "malformed \\k<...> named back reference"
  | .classInRange c =>
    ("cannot include class \\" : Text) ++ Text.ofNat c.toNat ++ " in character range"
  | .unterminatedSet => "unterminated [] set"
  | .subtractionNotLast => "a subtraction must be the last element in a character class"
  | .reversedRange first last =>
    ("[" : Text) ++ Text.ofChars [shownChar first, '-', shownChar last] ++ "] range in reverse order"

end PackageCycles.Pattern
