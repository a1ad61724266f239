import EntityQuery.Operator

/-! # Truth

A condition on a row holds, fails, or is unknown because it depends on a value that is null.
Negation, conjunction and disjunction are those of strong Kleene logic. -/

namespace EntityQuery

/-- The three truths of a condition. -/
inductive Truth where
  | holds
  | fails
  | unknown
deriving DecidableEq, Repr

namespace Truth

/-- A condition that cannot be unknown. -/
def ofBool (b : Bool) : Truth := if b then .holds else .fails

/-- The opposite of what is unknown is unknown. -/
def not : Truth → Truth
  | .holds => .fails
  | .fails => .holds
  | .unknown => .unknown

/-- One part that fails decides, even against one that is unknown. -/
def and : Truth → Truth → Truth
  | .fails, _ => .fails
  | _, .fails => .fails
  | .holds, .holds => .holds
  | _, _ => .unknown

/-- One part that holds decides, even against one that is unknown. -/
def or : Truth → Truth → Truth
  | .holds, _ => .holds
  | _, .holds => .holds
  | .fails, .fails => .fails
  | _, _ => .unknown

/-- The truth of what is attached to what is before it. -/
def attach : Connective → Truth → Truth → Truth
  | .and => and
  | .or => or

end Truth

end EntityQuery
