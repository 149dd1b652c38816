import PackageCycles.Text.Base64
import PackageCycles.Text.Quoted
import PackageCycles.Yaml.Node

/-!
# Records from documents

A record is filled from the mapping of a document. The fields that the mapping names are set and all
others stay as they are, so what was there before acts as the default. A value of the wrong kind is
noted with its line and does not keep the other fields from being read; a key that is repeated is
noted too, and the mapping is then left out as a whole. A merge key brings in the fields of another
mapping that the mapping itself does not name.

An alias is followed to the node of its anchor, unless it is followed already, which happens if that
node contains the alias. Every node that is looked at is counted, and a document whose aliases make up
too large a part of this is refused.

This is the reader of a library, and its behaviour is followed as far as documents of settings go.
What settings rely on is less: that the fields which are set, and what they are set to, depend on
the document alone (`Yaml.LawfulReader`).
-/

namespace PackageCycles.Yaml

/-- A field of a record, with the operation that sets it. -/
inductive Field (σ : Type) where
  | text (set : Text → σ → σ)
  | int (set : Int → σ → σ)
  | bool (set : Bool → σ → σ)
  | texts (set : List Text → σ → σ)
  /-- A record within the record. -/
  | record (type : Text) (fields : List (Text × Field σ))

/-- The name of the kind of value that a field takes. -/
def Field.type {σ : Type} : Field σ → Text
  | .text _ => "string"
  | .int _ => "int"
  | .bool _ => "bool"
  | .texts _ => "[]string"
  | .record type _ => type

/-- Something in a document that does not fit the record. -/
inductive Misfit where
  /-- A value of the wrong kind. Sequences and mappings have no text. -/
  | value (line : Nat) (tag text type : Text)
  /-- A key that has been given before. -/
  | repeated (line : Nat) (key : Text) (earlier : Nat)
  /-- A field that has been set before by a key that is written in another way. -/
  | alreadySet (line : Nat) (name type : Text)
  deriving DecidableEq

/-- A text cut so that it is short enough for a message. -/
def shortened (t : Text) : Text := if 10 < t.length then t.take 7 ++ "..." else t

/-- A text behind a tag. Only behind the tags of sequences and mappings it stands as it is. -/
def shownBehind (tag text : Text) : Text :=
  if tag = "!!seq" ∨ tag = "!!map" then text else (" `" : Text) ++ shortened text ++ "`"

/-- The wording of a misfit. -/
def Misfit.message : Misfit → Text
  | .value line tag text type =>
    ("line " : Text) ++ Text.ofNat line ++ ": cannot unmarshal " ++ tag ++ shownBehind tag text ++
      " into " ++ type
  | .repeated line key earlier =>
    ("line " : Text) ++ Text.ofNat line ++ ": mapping key " ++ key.quoted ++
      " already defined at line " ++ Text.ofNat earlier
  | .alreadySet line name type =>
    ("line " : Text) ++ Text.ofNat line ++ ": field " ++ name ++ " already set in type " ++ type

/-- A value that does not fit a kind. -/
def Node.misfit (type : Text) : Node → Misfit
  | .scalar line tag text => .value line tag text type
  | .sequence line tag _ => .value line tag [] type
  | .mapping line tag _ => .value line tag [] type
  | .alias line name _ _ => .value line [] name type

/-! ## Operations -/

/-- What filling a record has come to. -/
structure Filling (σ : Type) where
  /-- The record so far. -/
  record : σ
  /-- What did not fit, in the order in which it was met. -/
  misfits : List Misfit
  /-- How many nodes have been looked at. -/
  visits : Nat
  /-- How many of them through an alias. -/
  aliasVisits : Nat

/-- The part of the visits that may come through aliases, in parts of 360,000,000: 99 percent of up
to 400,000 visits, 10 percent of 4,000,000 and more, and in between what lies on the straight
line. -/
def allowedShare (visits : Nat) : Nat :=
  if visits ≤ 400000 then 99 * 3600000
  else if 4000000 ≤ visits then 10 * 3600000
  else 99 * 3600000 - 89 * (visits - 400000)

/-- Too many visits come through aliases. -/
def isExcessive (visits aliasVisits : Nat) : Bool :=
  100 < aliasVisits && 1000 < visits && visits * allowedShare visits < aliasVisits * 360000000

/-- An operation on a record that is being filled; none if the document is malformed. -/
abbrev Fill (σ : Type) (α : Type) := StateT (Filling σ) Option α

namespace Fill

variable {σ : Type}

/-- The document is malformed. -/
def fault {α : Type} : Fill σ α := fun _ => none

/-- Notes something that does not fit. -/
def note (m : Misfit) : Fill σ Unit :=
  modify fun f => { f with misfits := f.misfits ++ [m] }

/-- Changes the record. -/
def change (set : σ → σ) : Fill σ Unit := modify fun f => { f with record := set f.record }

/-- Counts a node that is looked at while the given aliases are followed. -/
def visit (followed : List Nat) : Fill σ Unit := do
  modify fun f =>
    { f with
      visits := f.visits + 1
      aliasVisits := if followed.isEmpty then f.aliasVisits else f.aliasVisits + 1 }
  let f ← get
  if isExcessive f.visits f.aliasVisits then fault

end Fill

open Fill

variable {σ : Type}

/-- What a scalar stands for and, if that is a text, the text. -/
def scalarValue (tag text : Text) : Fill σ (Resolved × Text) := do
  match resolveTagged tag text with
  | none => fault
  | some value =>
    if tag = "!!binary" then
      match Text.Base64.decode? text with
      | some bytes => return (value, bytes)
      | none => fault
    return (value, text)

/-- Sets a field from a scalar. -/
def fillScalar (field : Field σ) (line : Nat) (tag text : Text) : Fill σ Unit := do
  let (value, shown) ← scalarValue tag text
  let misfit : Fill σ Unit := note ((Node.scalar line tag text).misfit field.type)
  match field, value with
  | .texts set, .null => change (set [])
  | _, .null => return ()
  | .text set, _ => change (set shown)
  | .int set, .int n => if n ≤ Integer.greatest then change (set n) else misfit
  | .int set, .float x =>
    match truncate? x with
    | some n => change (set n)
    | none => misfit
  | .bool set, .bool b => change (set b)
  | .bool set, .text =>
    match looseBool? shown with
    | some b => change (set b)
    | none => misfit
  | _, _ => misfit

/-- The node that an alias leads to, with the aliases that are followed then. -/
def follow (d : Document) (followed : List Nat) (number anchor : Nat) :
    Fill σ (Node × List Nat) := do
  if followed.contains number then fault
  match d.anchored.lookup anchor with
  | some target => return (target, number :: followed)
  | none => fault

/-- The keys that a mapping repeats. Keys are the same if they are scalars or aliases with the same
text, or both lists, or both mappings. -/
def repeatedKeys : List (Node × Node) → List Misfit
  | [] => []
  | (key, _) :: rest =>
    let kind := fun (n : Node) => match n with
      | .scalar _ _ text => (0, text)
      | .sequence .. => (1, [])
      | .mapping .. => (2, [])
      | .alias _ name _ _ => (3, name)
    (rest.filterMap fun (other, _) =>
      if kind other = kind key then some (.repeated other.line (kind other).2 key.line) else none) ++
      repeatedKeys rest

/-- A node with an alias followed to its end. Every node on the way is counted. -/
def reach (d : Document) (followed : List Nat) (node : Node) : Fill σ (Node × List Nat) := do
  visit followed
  match node with
  | .alias _ _ number anchor =>
    let (target, followed) ← follow d followed number anchor
    visit followed
    return (target, followed)
  | node => return (node, followed)

/-- The text of a node that has to be a scalar, unless it is null or does not fit. -/
def textOf (d : Document) (followed : List Nat) (node : Node) : Fill σ (Option Text) := do
  let (node, _) ← reach d followed node
  match node with
  | .scalar _ tag text =>
    let (value, shown) ← scalarValue tag text
    match value with
    | .null => return none
    | _ => return some shown
  | .mapping _ _ entries =>
    let repeated := repeatedKeys entries
    if repeated.isEmpty then note (node.misfit "string") else repeated.forM note
    return none
  | node =>
    note (node.misfit "string")
    return none

/-- The key brings in another mapping. -/
def isMerge : Node → Bool
  | .scalar _ tag text => text = "<<" && tag = "!!merge"
  | _ => false

/-- The key as it stands for itself, if that is a text. -/
def ownName (d : Document) (followed : List Nat) (key : Node) : Fill σ (Option Text) := do
  let (key, _) ← reach d followed key
  match key with
  | .scalar _ tag text =>
    let (value, shown) ← scalarValue tag text
    match value with
    | .text => return some shown
    | _ => return none
  | _ => return none

mutual

/-- Sets a field from a node, while the given aliases are followed. -/
def fillField (d : Document) (field : Field σ) : (fuel : Nat) → List Nat → Node → Fill σ Unit
  | 0, _, _ => fault
  | fuel + 1, followed, node => do
    let (node, followed) ← reach d followed node
    match node with
    | .alias .. => fault
    | .scalar line tag text => fillScalar field line tag text
    | .sequence _ _ items =>
      match field with
      | .texts set =>
        let texts ← items.filterMapM (textOf d followed)
        change (set texts)
      | _ => note (node.misfit field.type)
    | .mapping _ _ entries =>
      let repeated := repeatedKeys entries
      if !repeated.isEmpty then repeated.forM note
      else match field with
        | .record type fields =>
          let _ ← fillRecord d type fields none fuel followed entries
        | _ => note (node.misfit field.type)

/-- Sets the fields that a mapping names. With `taken` only those are set that are not among them;
what is taken afterwards is given back. -/
def fillRecord (d : Document) (type : Text) (fields : List (Text × Field σ))
    (taken : Option (List Text)) :
    (fuel : Nat) → List Nat → List (Node × Node) → Fill σ (Option (List Text))
  | 0, _, _ => fault
  | fuel + 1, followed, entries => do
    let taken' ← fillEntries d type fields fuel followed taken [] entries
    match (entries.filter fun (key, _) => isMerge key).getLast? with
    | none => return taken'
    | some (_, source) =>
      let start ← match taken' with
        | some names => pure names
        | none => entries.filterMapM fun (key, _) => ownName d followed key
      let sources := match source with
        | .sequence _ _ items => items
        | other => [other]
      let after ← fillMerged d type fields start fuel followed sources
      return taken'.map fun _ => after

/-- Sets the fields of entries one after the other. `done` are the fields that have been set. -/
def fillEntries (d : Document) (type : Text) (fields : List (Text × Field σ)) :
    (fuel : Nat) → List Nat → Option (List Text) → List Text → List (Node × Node) →
      Fill σ (Option (List Text))
  | 0, _, _, _, _ => fault
  | _ + 1, _, taken, _, [] => return taken
  | fuel + 1, followed, taken, done, (key, value) :: rest => do
    if isMerge key then fillEntries d type fields fuel followed taken done rest
    else match ← textOf d followed key with
      | none => fillEntries d type fields fuel followed taken done rest
      | some name =>
        if (taken.getD []).contains name then
          fillEntries d type fields fuel followed taken done rest
        else
          let taken := taken.map (name :: ·)
          match fields.lookup name with
          | none => fillEntries d type fields fuel followed taken done rest
          | some field =>
            if done.contains name then
              note (.alreadySet key.line name type)
              fillEntries d type fields fuel followed taken done rest
            else
              fillField d field fuel followed value
              fillEntries d type fields fuel followed taken (name :: done) rest

/-- Sets the fields of mappings that are brought in, the first ones taking precedence. -/
def fillMerged (d : Document) (type : Text) (fields : List (Text × Field σ)) (taken : List Text) :
    (fuel : Nat) → List Nat → List Node → Fill σ (List Text)
  | 0, _, _ => fault
  | _ + 1, _, [] => return taken
  | fuel + 1, followed, source :: rest => do
    let (node, within) ← reach d followed source
    match node with
    | .mapping _ _ entries =>
      let repeated := repeatedKeys entries
      let taken ← if !repeated.isEmpty then do
          repeated.forM note
          pure taken
        else do
          let after ← fillRecord d type fields (some taken) fuel within entries
          pure (after.getD taken)
      fillMerged d type fields taken fuel followed rest
    | _ => fault

end

/-- Why a document could not be read into a record. -/
inductive ReadError where
  /-- The document is malformed. -/
  | malformed
  /-- Parts of it do not fit the record. -/
  | misfits (all : List Misfit)
  deriving DecidableEq

/-- The wording of the error. -/
def ReadError.message : ReadError → Text
  | .malformed => "yaml: malformed document"
  | .misfits all =>
    ("yaml: unmarshal errors:\n  " : Text) ++ Text.join "\n  " (all.map Misfit.message)

/-- The record with the fields set that the first document of a text names. The document itself
counts as the first node that is looked at. -/
def fill (field : Field σ) (record : σ) (content : Text) : Except ReadError σ :=
  match parse content with
  | none => .error .malformed
  | some none => .ok record
  | some (some d) =>
    let fuel := 3 * (d.aliases + 1) * (d.size + 1) + 3
    match (fillField d field fuel [] d.root).run ⟨record, [], 1, 0⟩ with
    | none => .error .malformed
    | some (_, filling) =>
      if filling.misfits.isEmpty then .ok filling.record else .error (.misfits filling.misfits)

end PackageCycles.Yaml
