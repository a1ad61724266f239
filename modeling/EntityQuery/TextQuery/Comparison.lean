import EntityQuery.TextQuery.Names
import EntityQuery.TextQuery.Token

/-! # Comparisons in text

A comparison of a field with a value is written with a parameter in place of the value.  Equality
with null is written as a test for null, and the operand of an ordering is cast to the type of the
field if that is known. -/

namespace EntityQuery.Comparison

/-- The field followed by an operator that takes no value. -/
def unary (written : String) (operator : Operator) : Phrase :=
  .ofText (written ++ " " ++ operator.spelling)

/-- A field, an operator and a parameter on one line. -/
def withParameter (written : String) (operator : Operator) (parameter : Phrase) : Phrase :=
  .plain (written ++ " " ++ operator.spelling ++ " ") :: parameter

/-- The operand of an ordering; `written` names the field in messages. -/
def orderingOperand (written : String) (operator : Operator) (type? : Option ScalarType)
    (value : Value) : Result Value :=
  if value.isNull then .error (.operandNull operator written)
  else match type? with
    | some type => (value.cast type).map .scalar
    | none => .ok value

/-- A comparison with a value, which becomes a parameter. -/
def bound (written field : String) (operator : Operator) (value : Value) : Binding Phrase := do
  return withParameter written operator (← Binding.bindValue field value)

/-- Only a list can be looked through. -/
def membership (written field : String) (operator : Operator) (value : Value) :
    Binding Phrase := do
  match value.toList? with
  | none => throw .listOperandExpected
  | some _ =>
    return withParameter written operator
      (Phrase.parenthesized (← Binding.bindValue field value))

/-- A value is looked for in the list that a field holds as text. -/
def findInSet (written field comparison : String) (value : Value) : Binding Phrase := do
  return .plain "find_in_set(" :: (← Binding.bindValue field value) ++
    [.plain ("," ++ written ++ ") " ++ comparison)]

/-- The comparison of `field`, which is written as `written`, with a value. -/
def phrase (written field : String) (type? : Option ScalarType) (operator : Operator)
    (value : Value) : Binding Phrase :=
  match operator with
  | .isNull | .isNotNull => pure (unary written operator)
  | .equal =>
    if value.isNull then pure (unary written .isNull) else bound written field operator value
  | .diff =>
    if value.isNull then pure (unary written .isNotNull) else bound written field operator value
  | .like | .notLike => bound written field operator value
  | .isIn | .notIn => membership written field operator value
  | .findInSet => findInSet written field "> 0" value
  | .notFindInSet => findInSet written field "= 0" value
  | .less | .lessOrEqual | .greater | .greaterOrEqual => do
    bound written field operator (← orderingOperand written operator type? value)

end EntityQuery.Comparison
