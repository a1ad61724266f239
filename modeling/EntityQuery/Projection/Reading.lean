import EntityQuery.Value

/-! # Reading values as a wanted type

A scalar is cast, an optional reading leaves null alone, and a reading of many takes a list, null
for the empty list and any other value for a list of one. -/

namespace EntityQuery

/-- The type that a value is asked for as. -/
inductive Reading where
  | any
  | scalar (type : ScalarType)
  | optional (item : Reading)
  | many (item : Reading)

namespace Reading

/-- A value as of that type.  Null is an optional value and a collection without items, but no
scalar. -/
def read : Reading → Value → Result Value
  | .any, v => .ok v
  | .scalar type, v => (v.cast type).map Value.scalar
  | .optional item, v => if v.isNull then .ok .null else item.read v
  | .many item, v =>
    match v with
    | .null => .ok (.list [])
    | .list items => (items.mapM item.read).map Value.list
    | v => (item.read v).map fun w => .list [w]

end Reading

end EntityQuery
