/-! # Sets of characters given by their bounds

A set of characters is written as the ascending list of the code points at which membership
changes, the first being its first member. -/

namespace EntityQuery.Text

/-- An odd number of bounds lies at or below a member. -/
def within : List Nat → Nat → Bool
  | [], _ => false
  | b :: bs, n => if n < b then false else !within bs n

end EntityQuery.Text
