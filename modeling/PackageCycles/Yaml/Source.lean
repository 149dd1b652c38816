import PackageCycles.Text.Utf16
import PackageCycles.Text.Utf8

/-!
# The characters of a document

A mark at the start of a text tells its encoding, which is UTF-8 if there is no mark. The bytes are
read in pieces of 512, a character that does not fit being left to the next piece. A byte that
belongs to no character, or a character that may not stand in a document, spoils the piece that it
is in, but not the pieces before: who never reads that far does not meet the fault.
-/

namespace PackageCycles.Yaml

/-- A character that may stand in a document. -/
def isDocumentChar (c : Char) : Bool :=
  let n := c.toNat
  n = 0x09 || n = 0x0A || n = 0x0D || (0x20 ≤ n && n ≤ 0x7E) || n = 0x85 ||
    (0xA0 ≤ n && n ≤ 0xD7FF) || (0xE000 ≤ n && n ≤ 0xFFFD) || 0x10000 ≤ n

/-- What stands at the start of some bytes. -/
inductive Decoded where
  /-- A character of some bytes. -/
  | char (c : Char) (width : Nat)
  /-- No character, although there would be bytes enough for it. -/
  | stray (width : Nat)
  /-- A character of which the last bytes are missing. -/
  | incomplete
  deriving DecidableEq

/-- The number of bytes that a UTF-8 sequence has by its first one. A byte that starts none counts
for itself. -/
def utf8Width (b : UInt8) : Nat :=
  if b < 0xC0 then 1 else if b < 0xE0 then 2 else if b < 0xF0 then 3 else if b < 0xF8 then 4 else 1

/-- What stands at the start of bytes in UTF-8. -/
def decodeUtf8 (s : Text) : Decoded :=
  match s.uncons with
  | some (.char c, _) => .char c c.utf8Size
  | some (.stray b, _) =>
    let width := utf8Width b
    if (s.take width).length < width then .incomplete else .stray width
  | none => .incomplete

/-- What stands at the start of bytes in units of two. -/
def decodeUtf16 (order : Text.Utf16.ByteOrder) : Text → Decoded
  | a :: b :: rest =>
    let unit := Text.Utf16.unitOf order a b
    if Text.Utf16.isLow unit then .stray 2
    else if Text.Utf16.isHigh unit then
      match rest with
      | c :: d :: _ =>
        let next := Text.Utf16.unitOf order c d
        if Text.Utf16.isLow next then .char (Text.Utf16.pair unit next) 4 else .stray 4
      | _ => .incomplete
    else .char (Char.ofNat unit) 2
  | _ => .incomplete

/-- A document as far as it can be read. -/
structure Source where
  /-- The characters that can be read. -/
  chars : List Char
  /-- They are all that there are. -/
  whole : Bool
  /-- How many of them are in the first piece. -/
  firstPiece : Nat

/-- The number of bytes in a piece. -/
def pieceSize : Nat := 512

/-- The document that ends with some characters, the latest first, of which those in the first piece
are counted. -/
def Source.ending (whole : Bool) (firstPiece : Nat) (read : List Char) : Source :=
  ⟨read.reverse, whole, firstPiece⟩

/-- Reads at most `fuel` characters. `room` is what is left of the piece in hand, whose characters
are `pending`; those of the pieces before are `ready`, and both have the latest character first. -/
def Source.read (decode : Text → Decoded) :
    (fuel room : Nat) → (ready pending : List Char) → (firstPiece : Option Nat) → Text → Source
  | 0, _, ready, pending, first, _ => ending true (first.getD pending.length) (pending ++ ready)
  | _, _, ready, pending, first, [] => ending true (first.getD pending.length) (pending ++ ready)
  | fuel + 1, room, ready, pending, first, s =>
    match decode s with
    | .incomplete => ending false (first.getD pending.length) (pending ++ ready)
    | .stray width =>
      if room < width then ending false (first.getD pending.length) (pending ++ ready)
      else ending false (first.getD 0) ready
    | .char c width =>
      if isDocumentChar c then
        if room < width then
          read decode fuel (pieceSize - width) (pending ++ ready) [c]
            (some (first.getD pending.length)) (s.drop width)
        else read decode fuel (room - width) ready (c :: pending) first (s.drop width)
      else if room < width then ending false (first.getD pending.length) (pending ++ ready)
      else ending false (first.getD 0) ready

/-- The characters of a text. -/
def Source.ofText (content : Text) : Source :=
  let read := fun (decode : Text → Decoded) (markWidth : Nat) (s : Text) =>
    Source.read decode s.length (pieceSize - markWidth) [] [] none s
  match content with
  | 0xFF :: 0xFE :: rest => read (decodeUtf16 .lowFirst) 2 rest
  | 0xFE :: 0xFF :: rest => read (decodeUtf16 .highFirst) 2 rest
  | 0xEF :: 0xBB :: 0xBF :: rest => read decodeUtf8 3 rest
  | _ => read decodeUtf8 0 content

end PackageCycles.Yaml
