import EntityQuery.Error
import EntityQuery.Evaluation.Truth
import EntityQuery.GraphQuery.Predicate
import EntityQuery.Text.Pattern
import EntityQuery.Value.Order
import EntityQuery.Value.Text

/-! # Truth of comparisons

Null makes every comparison unknown.  Values that have no order are equal or different, and nothing
else is known of them. -/

namespace EntityQuery

/-- The orderings of two values for which a comparison holds. -/
def Comparator.admits : Comparator → Ordering → Bool
  | .equal, o => o = .eq
  | .notEqual, o => o ≠ .eq
  | .less, o => o = .lt
  | .lessOrEqual, o => o ≠ .gt
  | .greater, o => o = .gt
  | .greaterOrEqual, o => o ≠ .lt

namespace Value

/-- What is known of values without an order. -/
def unorderedTruth (a : Value) (comparator : Comparator) (b : Value) : Truth :=
  match comparator with
  | .equal => .ofBool (a.equals b)
  | .notEqual => .ofBool (!a.equals b)
  | _ => .unknown

/-- A comparison with null is unknown.  Values without an ordering are only told apart. -/
def compareTruth (a : Value) (comparator : Comparator) (b : Value) : Truth :=
  if a.isNull || b.isNull then .unknown
  else match a.compare? b with
    | some o => .ofBool (comparator.admits o)
    | none => unorderedTruth a comparator b

/-- The value is among the candidates.  A null among them might be the value. -/
def memberTruth (v : Value) (candidates : List Value) : Truth :=
  if v.isNull then .unknown
  else if candidates.any fun c => v.compareTruth .equal c = .holds then .holds
  else if candidates.any isNull then .unknown
  else .fails

/-- The text of the value has the pattern. -/
def likeTruth (v pattern : Value) (negated : Bool) : Result Truth :=
  if v.isNull || pattern.isNull then .ok .unknown
  else if Text.isTooLarge pattern.text.toList then .error (.patternTooLarge pattern.text)
  else .ok (.ofBool (Text.hasPattern pattern.text.toList v.text.toList != negated))

end Value

end EntityQuery
