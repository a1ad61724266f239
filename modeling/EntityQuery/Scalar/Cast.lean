import EntityQuery.Error
import EntityQuery.Text.Blank
import EntityQuery.Time.Reading

/-! # Casting scalars

A scalar of the target type is left as it is.  Every other cast goes through the text of the
scalar, except between dates and date-times.  Blanks around the text count only for strings and
characters. -/

namespace EntityQuery.Scalar

/-- The scalar of the target type that a text writes. -/
def ofText? (target : ScalarType) (raw : List Char) : Option Scalar :=
  let text := Text.trim raw
  match target with
  | .string => some (.string (String.ofList raw))
  | .integer w => (BoundedInt.read? w text).map (.integer w)
  | .float => (Binary.read? .single text).map .float
  | .double => (Binary.read? .double text).map .double
  | .decimal => (Decimal.read? text).map .decimal
  | .bool => some (.bool (text.map Char.toLower = "true".toList))
  | .char => raw.head?.map .char
  | .date => (Date.read? text).map .date
  | .dateTime => (DateTime.read? text).map .dateTime

/-- The scalar as one of the target type. -/
def cast? (target : ScalarType) (s : Scalar) : Option Scalar :=
  if s.type = target then some s
  else match target, s with
    | .date, .dateTime t => some (.date t.date)
    | .dateTime, .date d => some (.dateTime (.atMidnight d))
    | target, s => ofText? target s.text.toList

/-- `cast?`, naming the text and the target of a cast that fails. -/
def cast (target : ScalarType) (s : Scalar) : Result Scalar :=
  match cast? target s with
  | some r => .ok r
  | none => .error (.coercion s.text target)

/-- A scalar is of its own type already. -/
theorem cast?_self (s : Scalar) : cast? s.type s = some s := by
  simp [cast?]

end EntityQuery.Scalar
