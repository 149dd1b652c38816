import PackageCycles.Yaml.Scalar
import PackageCycles.Yaml.Token

/-!
# The structure of a document

The tokens of a document are read into nodes: scalars, sequences and mappings. An alias stands for
the node that the latest anchor of its name before it belongs to. That node may be one that the
alias itself stands in, so an alias gives the number of an anchor, and the document has the nodes of
all anchors by their numbers. Only the first document of a text is read.
-/

namespace PackageCycles.Yaml

/-- The nodes of a document, each with its line. -/
inductive Node where
  /-- A scalar with its tag and text. -/
  | scalar (line : Nat) (tag text : Text)
  /-- A list of nodes. -/
  | sequence (line : Nat) (tag : Text) (items : List Node)
  /-- Keys with their values, in the order in which they are written. -/
  | mapping (line : Nat) (tag : Text) (entries : List (Node × Node))
  /-- The node of an anchor. Each alias of a document has a number of its own. -/
  | alias (line : Nat) (name : Text) (number anchor : Nat)

/-- The line of a node. -/
def Node.line : Node → Nat
  | .scalar line _ _ => line
  | .sequence line _ _ => line
  | .mapping line _ _ => line
  | .alias line _ _ _ => line

/-- A document. -/
structure Document where
  /-- The node of the whole. -/
  root : Node
  /-- The nodes of the anchors by their numbers. -/
  anchored : List (Nat × Node)
  /-- The number of aliases. -/
  aliases : Nat
  /-- The number of tokens. -/
  size : Nat

/-- The tag without its long form. -/
def shortTag (tag : Text) : Text :=
  let long : Text := "tag:yaml.org,2002:"
  if long.isPrefixOf tag then ("!!" : Text) ++ tag.drop long.length else tag

/-- The tag of a node that is tagged as given, or else the one that it has by itself. -/
def tagOr (given own : Text) : Text := if given = [] ∨ given = "!" then own else shortTag given

/-- The tag that a scalar has by itself. -/
def scalarTag (style : ScalarStyle) (text : Text) : Text :=
  if style ≠ .plain then "!!str"
  else if text = "<<" then "!!merge"
  else (resolve true text).tag

/-- The state of reading nodes. -/
structure NodeReader where
  /-- The tokens. -/
  lexer : Lexer
  /-- The numbers of the anchors by their names, the latest first. -/
  anchors : List (Text × Nat)
  /-- The nodes of the anchors, as far as they have been read. -/
  anchored : List (Nat × Node)
  /-- The number of aliases. -/
  aliases : Nat
  /-- What the handles of tags stand for. -/
  handles : List (List Char × Text)

/-- An operation on the tokens that are left. -/
abbrev ReadNode (α : Type) := StateT NodeReader Option α

namespace ReadNode

/-- The document is malformed. -/
def fault {α : Type} : ReadNode α := fun _ => none

/-- The next token. -/
def peek : ReadNode Located := fun r => do
  let (t, l) ← r.lexer.peek
  return (t, { r with lexer := l })

/-- Passes over a token. -/
def skip : ReadNode Unit := modify fun r => { r with lexer := r.lexer.take }

/-- The next token is one of those given. -/
def atOneOf (tokens : List Token) : ReadNode Bool := do
  let t ← peek
  return tokens.contains t.token

/-- Gives a number to an anchor. From here on aliases of its name refer to it. -/
def openAnchor (name : Option Text) : ReadNode (Option Nat) := do
  match name with
  | none => return none
  | some name =>
    let number := (← get).anchors.length
    modify fun r => { r with anchors := (name, number) :: r.anchors }
    return some number

/-- Notes the node of an anchor. -/
def closeAnchor (number : Option Nat) (node : Node) : ReadNode Unit :=
  match number with
  | none => pure ()
  | some number => modify fun r => { r with anchored := (number, node) :: r.anchored }

/-- The number of an alias. -/
def takeAlias : ReadNode Nat := do
  let number := (← get).aliases
  modify fun r => { r with aliases := number + 1 }
  return number

end ReadNode

open ReadNode

/-- What stands before a node. -/
structure Properties where
  /-- The line on which they start, if there are any. -/
  line : Option Nat
  /-- The name by which aliases refer to the node. -/
  anchor : Option Text
  /-- The tag, or the empty text. -/
  tag : Text

/-- The tag of a handle and a suffix. -/
def expandTag (handle : List Char) (suffix : Text) : ReadNode Text := do
  if handle.isEmpty then return suffix
  match (← get).handles.lookup handle with
  | some expansion => return expansion ++ suffix
  | none => fault

/-- Reads an anchor, if there is one. -/
def readAnchor : ReadNode (Option (Nat × Text)) := do
  let t ← peek
  match t.token with
  | .anchor name =>
    skip
    return some (t.line, Text.ofChars name)
  | _ => return none

/-- Reads a tag, if there is one. -/
def readTag : ReadNode (Option (Nat × Text)) := do
  let t ← peek
  match t.token with
  | .tag handle suffix =>
    skip
    return some (t.line, ← expandTag handle suffix)
  | _ => return none

/-- Reads an anchor and a tag, in either order. -/
def readProperties : ReadNode Properties := do
  match ← readAnchor with
  | some (line, anchor) =>
    let tag ← readTag
    return ⟨some line, some anchor, (tag.map (·.2)).getD []⟩
  | none =>
    match ← readTag with
    | some (line, tag) =>
      let anchor ← readAnchor
      return ⟨some line, anchor.map (·.2), tag⟩
    | none => return ⟨none, none, []⟩

/-- A node that is not written. -/
def emptyNode (line : Nat) : Node := .scalar line "!!null" []

/-- A node that is not written before the next token. -/
def emptyHere : ReadNode Node := do return emptyNode (← peek).line

mutual

/-- Reads a node. Outside brackets, and where `block` is set, it may be a block; a list may stand at
the indentation of the mapping that it is a value of if `sameIndent` is set. -/
def readNode (block sameIndent : Bool) : (fuel : Nat) → ReadNode Node
  | 0 => fault
  | fuel + 1 => do
    let first ← peek
    match first.token with
    | .alias name =>
      skip
      let name := Text.ofChars name
      match (← get).anchors.lookup name with
      | some anchor => return .alias first.line name (← takeAlias) anchor
      | none => fault
    | _ =>
      let p ← readProperties
      let t ← peek
      let line := p.line.getD t.line
      let anchored := fun (read : ReadNode Node) => do
        let number ← openAnchor p.anchor
        let node ← read
        closeAnchor number node
        return node
      let sequenceTag := tagOr p.tag "!!seq"
      let mappingTag := tagOr p.tag "!!map"
      match t.token with
      | .scalar style text =>
        skip
        let text := Text.ofChars text
        anchored (pure (.scalar line (tagOr p.tag (scalarTag style text)) text))
      | .flowSequence =>
        anchored do
          skip
          return .sequence line sequenceTag (← readFlowItems true fuel)
      | .flowMapping =>
        anchored do
          skip
          return .mapping line mappingTag (← readFlowEntries true fuel)
      | token =>
        if sameIndent && token = .entry then
          anchored do return .sequence line sequenceTag (← readItems true fuel)
        else if block && token = .blockSequence then
          anchored do
            skip
            return .sequence line sequenceTag (← readItems false fuel)
        else if block && token = .blockMapping then
          anchored do
            skip
            return .mapping line mappingTag (← readEntries fuel)
        else if p.line.isSome then
          anchored (pure (.scalar line (tagOr p.tag "!!null") []))
        else fault

/-- Reads the items of a list with dashes. A list at the indentation of a mapping ends with the
first token that is no dash. -/
def readItems (sameIndent : Bool) : (fuel : Nat) → ReadNode (List Node)
  | 0 => fault
  | fuel + 1 => do
    let t ← peek
    if t.token = .entry then
      skip
      let ends : List Token :=
        if sameIndent then [.entry, .key, .value, .blockEnd] else [.entry, .blockEnd]
      let item ← if ← atOneOf ends then pure (emptyNode t.line) else readNode true false fuel
      return item :: (← readItems sameIndent fuel)
    else if sameIndent then return []
    else if t.token = .blockEnd then
      skip
      return []
    else fault

/-- Reads the entries of a mapping without brackets. -/
def readEntries : (fuel : Nat) → ReadNode (List (Node × Node))
  | 0 => fault
  | fuel + 1 => do
    let t ← peek
    let ends : List Token := [.key, .value, .blockEnd]
    if t.token = .key then
      skip
      let key ← if ← atOneOf ends then pure (emptyNode t.line) else readNode true true fuel
      let colon ← peek
      let value ← if colon.token = .value then do
          skip
          if ← atOneOf ends then pure (emptyNode colon.line) else readNode true true fuel
        else pure (emptyNode colon.line)
      return (key, value) :: (← readEntries fuel)
    else if t.token = .blockEnd then
      skip
      return []
    else fault

/-- Reads the items of a list in brackets. A key among them starts a mapping of one entry. -/
def readFlowItems (first : Bool) : (fuel : Nat) → ReadNode (List Node)
  | 0 => fault
  | fuel + 1 => do
    if ← atOneOf [.flowSequenceEnd] then
      skip
      return []
    if !first then
      if ← atOneOf [.comma] then skip else fault
    let t ← peek
    if t.token = .flowSequenceEnd then
      skip
      return []
    else if t.token = .key then
      skip
      let ends : List Token := [.comma, .flowSequenceEnd]
      let key ← if ← atOneOf (.value :: ends) then do
          let key ← emptyHere
          skip
          pure key
        else readNode false false fuel
      let value ← if ← atOneOf [.value] then do
          skip
          if ← atOneOf ends then emptyHere else readNode false false fuel
        else emptyHere
      return .mapping t.line "!!map" [(key, value)] :: (← readFlowItems false fuel)
    else
      let item ← readNode false false fuel
      return item :: (← readFlowItems false fuel)

/-- Reads the entries of a mapping in brackets. -/
def readFlowEntries (first : Bool) : (fuel : Nat) → ReadNode (List (Node × Node))
  | 0 => fault
  | fuel + 1 => do
    if ← atOneOf [.flowMappingEnd] then
      skip
      return []
    if !first then
      if ← atOneOf [.comma] then skip else fault
    let t ← peek
    if t.token = .flowMappingEnd then
      skip
      return []
    else if t.token = .key then
      skip
      let ends : List Token := [.comma, .flowMappingEnd]
      let key ← if ← atOneOf (.value :: ends) then emptyHere else readNode false false fuel
      let value ← if ← atOneOf [.value] then do
          skip
          if ← atOneOf ends then emptyHere else readNode false false fuel
        else emptyHere
      return (key, value) :: (← readFlowEntries false fuel)
    else
      let key ← readNode false false fuel
      let value ← emptyHere
      return (key, value) :: (← readFlowEntries false fuel)

end

/-- The handles that every document knows. -/
def defaultHandles : List (List Char × Text) :=
  [("!".toList, "!"), ("!!".toList, "tag:yaml.org,2002:")]

/-- Reads the directives before a document, `fuel` of them at most. -/
def readDirectives (versionSeen : Bool) : (fuel : Nat) → ReadNode Unit
  | 0 => fault
  | fuel + 1 => do
    let t ← peek
    match t.token with
    | .version major minor =>
      if versionSeen || major ≠ 1 || minor ≠ 1 then fault
      skip
      readDirectives true fuel
    | .tagHandle handle expansion =>
      let known := (← get).handles.dropLast.dropLast
      if (known.lookup handle).isSome then fault
      modify fun r => { r with handles := (handle, expansion) :: r.handles }
      skip
      readDirectives versionSeen fuel
    | _ => return ()

/-- Reads the first document; none if there is no document at all. -/
def readDocument (fuel : Nat) : ReadNode (Option Node) := do
  let t ← peek
  match t.token with
  | .streamEnd => return none
  | .version .. | .tagHandle .. | .documentStart =>
    readDirectives false fuel
    if !(← atOneOf [.documentStart]) then fault
    skip
    let next ← peek
    let node ← match next.token with
      | .version .. | .tagHandle .. | .documentStart | .documentEnd | .streamEnd =>
        pure (emptyNode next.line)
      | _ => readNode true false fuel
    let _ ← peek
    return some node
  | _ =>
    let node ← readNode true false fuel
    let _ ← peek
    return some node

/-- The first document of a text. The outer option is none if it is malformed, the inner one if
there is no document. -/
def parse (content : Text) : Option (Option Document) := do
  let source := Source.ofText content
  let fuel := 8 * source.chars.length + 40
  let (node, r) ← (readDocument fuel).run ⟨Lexer.start source, [], [], 0, defaultHandles⟩
  return node.map fun root => ⟨root, r.anchored, r.aliases, r.lexer.size⟩

end PackageCycles.Yaml
