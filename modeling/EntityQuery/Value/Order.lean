import EntityQuery.Scalar.Order
import EntityQuery.Value

/-! # Comparing values

Only scalars are ordered.  Equality is narrower than the order: it holds within one type, goes
through lists and records, and holds of an instance only with itself. -/

namespace EntityQuery.Value

/-- Only scalars are ordered. -/
def compare? : Value → Value → Option Ordering
  | .scalar a, .scalar b => a.compare? b
  | _, _ => none

mutual

/-- Values are equal part by part.  Objects are equal if they are the same one. -/
def equals : Value → Value → Bool
  | .null, .null => true
  | .scalar a, .scalar b => a.equals b
  | .list as, .list bs => equalLists as bs
  | .record e as, .record f bs => e = f && equalFields as bs
  | .object a, .object b => a.token = b.token
  | _, _ => false

def equalLists : List Value → List Value → Bool
  | [], [] => true
  | a :: as, b :: bs => equals a b && equalLists as bs
  | _, _ => false

def equalFields : List (String × Value) → List (String × Value) → Bool
  | [], [] => true
  | (k, a) :: as, (l, b) :: bs => k = l && equals a b && equalFields as bs
  | _, _ => false

end

end EntityQuery.Value
