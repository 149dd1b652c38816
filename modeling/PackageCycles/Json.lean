import PackageCycles.Text.Quoted

/-!
# JSON documents

Reports and log lines are written as JSON. `Json` is a document, `Json.compact` writes it on one
line and `Json.pretty` with two spaces of indentation per level. Characters that must not stand in
a string are escaped, as are U+2028 and U+2029, and a byte that belongs to no character becomes
U+FFFD. Log lines also escape the three characters that mean something in HTML.
-/

namespace PackageCycles

/-- A JSON document. The members of an object are written in the order given. -/
inductive Json where
  | null
  | bool (b : Bool)
  | int (n : Int)
  | text (t : Text)
  | list (items : List Json)
  | object (members : List (Text × Json))

namespace Json

/-- Which characters a string escapes beyond those that it has to. -/
inductive Escaping where
  /-- None. -/
  | plain
  /-- `<`, `>` and `&`. -/
  | html
  deriving DecidableEq

/-- A character or stray byte as it is written in a string. -/
def escapePiece (escaping : Escaping) : Piece → Text
  | .stray _ => "\\ufffd"
  | .char c =>
    if c = '"' || c = '\\' then Text.ofChars ['\\', c]
    else if c.toNat < 0x20 then
      match c.toNat with
      | 8 => "\\b"
      | 9 => "\\t"
      | 10 => "\\n"
      | 12 => "\\f"
      | 13 => "\\r"
      | n => "\\u" ++ Text.hex 4 n
    else if c.toNat = 0x2028 || c.toNat = 0x2029 ||
        (escaping = .html && (c = '<' || c = '>' || c = '&')) then
      "\\u" ++ Text.hex 4 c.toNat
    else Text.ofChars [c]

/-- A string with its quotation marks. -/
def string (escaping : Escaping) (t : Text) : Text :=
  "\"" ++ t.pieces.flatMap (escapePiece escaping) ++ "\""

mutual

/-- The document on one line. -/
def compact (escaping : Escaping) : Json → Text
  | .null => "null"
  | .bool b => Text.ofBool b
  | .int n => Text.ofInt n
  | .text t => string escaping t
  | .list items => "[" ++ Text.join "," (compactItems escaping items) ++ "]"
  | .object members => "\x7b" ++ Text.join "," (compactMembers escaping members) ++ "\x7d"

/-- The items of a list, each on one line. -/
def compactItems (escaping : Escaping) : List Json → List Text
  | [] => []
  | item :: rest => compact escaping item :: compactItems escaping rest

/-- The members of an object, each on one line. -/
def compactMembers (escaping : Escaping) : List (Text × Json) → List Text
  | [] => []
  | (key, value) :: rest =>
    (string escaping key ++ ":" ++ compact escaping value) :: compactMembers escaping rest

end

/-- `n` levels of indentation. -/
def indentation (n : Nat) : Text := List.replicate (2 * n) (Text.byte ' ')

/-- `items` on lines of their own, one level deeper than `level`, between the two brackets; an
empty list keeps the brackets together. -/
def block (level : Nat) (opening closing : Text) (items : List Text) : Text :=
  if items.isEmpty then opening ++ closing
  else
    opening ++ "\n" ++ indentation (level + 1) ++
      Text.join (",\n" ++ indentation (level + 1)) items ++
      "\n" ++ indentation level ++ closing

mutual

/-- The document with its inner lines indented below `level`. -/
def prettyAt (escaping : Escaping) (level : Nat) : Json → Text
  | .null => "null"
  | .bool b => Text.ofBool b
  | .int n => Text.ofInt n
  | .text t => string escaping t
  | .list items => block level "[" "]" (prettyItems escaping (level + 1) items)
  | .object members => block level "\x7b" "\x7d" (prettyMembers escaping (level + 1) members)

/-- The items of a list, each indented below `level`. -/
def prettyItems (escaping : Escaping) (level : Nat) : List Json → List Text
  | [] => []
  | item :: rest => prettyAt escaping level item :: prettyItems escaping level rest

/-- The members of an object, each indented below `level`. -/
def prettyMembers (escaping : Escaping) (level : Nat) : List (Text × Json) → List Text
  | [] => []
  | (key, value) :: rest =>
    (string escaping key ++ ": " ++ prettyAt escaping level value) ::
      prettyMembers escaping level rest

end

/-- The document over several lines, with a newline at the end. -/
def pretty (json : Json) : Text := prettyAt .plain 0 json ++ "\n"

end Json

end PackageCycles
