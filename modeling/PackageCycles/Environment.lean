import PackageCycles.Text.Basic

/-!
# Environment variables

The variables of a process by their names. A variable that is set to the empty text is set; many
settings do not tell it from one that is not.
-/

namespace PackageCycles

/-- Variables with their values. Of two with the same name the first one counts. -/
structure Environment where
  /-- The variables. -/
  bindings : List (Text × Text)

namespace Environment

/-- No variable is set. -/
def empty : Environment := ⟨[]⟩

/-- The value of a variable that is set. -/
def get? (e : Environment) (name : Text) : Option Text := e.bindings.lookup name

/-- The value of a variable that is set and not empty. -/
def nonempty? (e : Environment) (name : Text) : Option Text :=
  (e.get? name).filter (· ≠ [])

/-- The text can be the name or the value of a variable as far as its bytes are concerned. -/
def isStorable (t : Text) : Bool := !t.contains 0

/-- Sets a variable unless it is set. A name that cannot be one is passed over. -/
def setNew (e : Environment) (name value : Text) : Environment :=
  if name = [] ∨ !isStorable name ∨ !isStorable value ∨ (e.get? name).isSome then e
  else ⟨e.bindings ++ [(name, value)]⟩

end Environment

end PackageCycles
