import PackageCycles.Proofs.Pattern.Numbering
import PackageCycles.Proofs.Pattern.WholeMatch

/-!
# Patterns between anchors

Whether a pattern matches a whole text is decided by looking for the wrapped pattern in it, which
stands in a group of its own between anchors for the start and the end of the text. This relies on
three laws (`LawfulEngine`): wrapping keeps the numbers of the groups unless sets are taken away
from sets, a wrapped pattern with the same groups denotes the anchored expression, and that is found
in a text exactly if the expression matches the whole of it. Where patterns are used, nothing else
is known of the engine (`LawfulEngine.finds_wrapped_iff`). The engine that runs obeys the laws.
-/

namespace PackageCycles.Pattern

/-- The pattern in a group of its own between anchors. -/
def wrapped (pattern : List Char) : List Char := wrapStart ++ pattern ++ wrapEnd

/-- The search for the expression from the start of the text comes to an end. -/
def Regex.Decides (r : Regex) (text : List Char) : Prop := r.matchesAt text.toArray 0 ≠ none

instance (r : Regex) (text : List Char) : Decidable (r.Decides text) :=
  inferInstanceAs (Decidable (r.matchesAt text.toArray 0 ≠ none))

/-- What is relied on of an engine that reads patterns, numbers their groups and looks for the
expressions in texts. -/
class LawfulEngine (parse : List Char → Except Fault Regex)
    (groups : List Char → Except Fault Groups) (finds : Regex → List Char → Bool)
    (decides : Regex → List Char → Prop) : Prop where
  /-- Wrapping keeps the numbers of the groups if nothing may be taken away from a set. -/
  groups_wrapped {pattern : List Char} {r : Regex} (h : parse pattern = .ok r)
    (hplain : ¬ MayTakeAway pattern) : groups (wrapped pattern) = groups pattern
  /-- If it keeps them, the wrapped pattern denotes the anchored expression. -/
  parse_wrapped {pattern : List Char} {r r' : Regex} (h : parse pattern = .ok r)
    (h' : parse (wrapped pattern) = .ok r') (hgroups : groups (wrapped pattern) = groups pattern) :
    r' = r.anchored
  /-- The anchored expression is found in a text exactly if the expression matches the whole of it.
  -/
  finds_anchored {r : Regex} {text : List Char} (h : decides r.anchored text) :
    finds r.anchored text = true ↔ r.MatchesWhole text.toArray

/-- A wrapped pattern is found in a text exactly if the pattern matches the whole of it. -/
theorem LawfulEngine.finds_wrapped_iff {parse : List Char → Except Fault Regex}
    {groups : List Char → Except Fault Groups} {finds : Regex → List Char → Bool}
    {decides : Regex → List Char → Prop} (engine : LawfulEngine parse groups finds decides)
    {pattern text : List Char} {r r' : Regex} (h : parse pattern = .ok r)
    (h' : parse (wrapped pattern) = .ok r') (hgroups : groups (wrapped pattern) = groups pattern)
    (hdecides : decides r' text) : finds r' text = true ↔ r.MatchesWhole text.toArray := by
  obtain rfl := engine.parse_wrapped h h' hgroups
  exact engine.finds_anchored hdecides

/-- The engine that runs. -/
instance Regex.engine : LawfulEngine Regex.parse groupsOf Regex.isFoundIn Regex.Decides where
  groups_wrapped := groupsOf_wrapped
  parse_wrapped := Regex.parse_wrapped
  finds_anchored := Regex.isFoundIn_anchored

end PackageCycles.Pattern
