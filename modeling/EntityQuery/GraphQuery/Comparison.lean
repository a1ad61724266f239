import EntityQuery.GraphQuery.Query
import EntityQuery.Scalar.Cast
import EntityQuery.Value.Text

/-! # Comparisons in a graph

A comparison of a path with a value is a predicate on the path and a literal.  Equality with null is
a test for null, and the operand of an ordering is cast to the type of the path. -/

namespace EntityQuery.Predicate

variable {ρ : Type}

/-- The attribute at a path compared with a value. -/
def compareLiteral (p : Path) (comparator : Comparator) (v : Value) : Predicate ρ :=
  .compare (.path p) comparator (.literal v)

/-- A pattern is always the text of its value, whatever type the attribute has. -/
def likeText (p : Path) (pattern : Value) (negated : Bool) : Predicate ρ :=
  .like (.path p) (.literal (.string pattern.text)) negated

/-- The operand of an ordering. -/
def orderingOperand (p : Path) (v : Value) : Result Value :=
  if v.isNull then .error (.comparedWithNull p.text)
  else match p.type? with
    | some type => (v.cast type).map .scalar
    | none => .ok v

/-- For an ordering the value is first cast to the type of the attribute. -/
def ordered (p : Path) (comparator : Comparator) (v : Value) : Result (Predicate ρ) :=
  (orderingOperand p v).map (compareLiteral p comparator)

/-- The attribute at a path is one of the values, or none of them. -/
def membership (p : Path) (values : List Value) (positive : Bool) : Predicate ρ :=
  signed positive (.isIn (.path p) values)

/-- The position of a text among the parts of another one, compared with zero. -/
def findInSet (p : Path) (comparator : Comparator) (v : Value) : Predicate ρ :=
  .compare (.call "find_in_set" [.literal (.string v.text), .path p]) comparator
    (.literal (.scalar (.integer .int (.zero .int))))

/-- The comparison of a path with a value. -/
def compareValue (p : Path) (operator : Operator) (v : Value) : Result (Predicate ρ) :=
  match operator with
  | .isNull => .ok (.isNull (.path p))
  | .isNotNull => .ok (.isNotNull (.path p))
  | .equal => .ok (if v.isNull then .isNull (.path p) else compareLiteral p .equal v)
  | .diff => .ok (if v.isNull then .isNotNull (.path p) else compareLiteral p .notEqual v)
  | .less => ordered p .less v
  | .lessOrEqual => ordered p .lessOrEqual v
  | .greater => ordered p .greater v
  | .greaterOrEqual => ordered p .greaterOrEqual v
  | .like => .ok (likeText p v false)
  | .notLike => .ok (likeText p v true)
  | .isIn | .notIn =>
    match v.toList? with
    | some values => .ok (membership p values (operator = .isIn))
    | none => .error .listOperandExpected
  | .findInSet => .ok (findInSet p .greater v)
  | .notFindInSet => .ok (findInSet p .equal v)

/-- The comparison of two expressions by an operator that can compare fields. -/
def between? : Operator → Option (Expression → Expression → Predicate ρ)
  | .equal => some (.compare · .equal ·)
  | .diff => some (.compare · .notEqual ·)
  | .less => some (.compare · .less ·)
  | .lessOrEqual => some (.compare · .lessOrEqual ·)
  | .greater => some (.compare · .greater ·)
  | .greaterOrEqual => some (.compare · .greaterOrEqual ·)
  | .like => some (.like · · false)
  | .notLike => some (.like · · true)
  | _ => none

end EntityQuery.Predicate
