/-! # Operators

The operators of conditions, joins, selections and orders, with their spelling in the query
language and the names that messages call them by. -/

namespace EntityQuery

/-- The operators of conditions. -/
inductive Operator where
  | equal
  | diff
  | lessOrEqual
  | less
  | greaterOrEqual
  | greater
  | isIn
  | like
  | notLike
  | notIn
  | isNull
  | isNotNull
  | findInSet
  | notFindInSet
deriving DecidableEq, Repr

namespace Operator

/-- How an operator is written in a statement. -/
def spelling : Operator → String
  | .equal => "="
  | .diff => "<>"
  | .lessOrEqual => "<="
  | .less => "<"
  | .greaterOrEqual => ">="
  | .greater => ">"
  | .isIn => "in"
  | .like => "like"
  | .notLike => "not like"
  | .notIn => "not in"
  | .isNull => "is null"
  | .isNotNull => "is not null"
  | .findInSet | .notFindInSet => "find_in_set"

/-- How an operator is named in a message. -/
def name : Operator → String
  | .equal => "EQUAL"
  | .diff => "DIFF"
  | .lessOrEqual => "LESS_OR_EQUAL"
  | .less => "LESS"
  | .greaterOrEqual => "GREATER_OR_EQUAL"
  | .greater => "GREATER"
  | .isIn => "IN"
  | .like => "LIKE"
  | .notLike => "NOT_LIKE"
  | .notIn => "NOT_IN"
  | .isNull => "IS_NULL"
  | .isNotNull => "IS_NOT_NULL"
  | .findInSet => "FIND_IN_SET"
  | .notFindInSet => "NOT_FIND_IN_SET"

/-- The operand of an ordering operator is cast to the type of the field. -/
def isOrdering : Operator → Bool
  | .less | .lessOrEqual | .greater | .greaterOrEqual => true
  | _ => false

/-- Two fields can be compared with the operator. -/
def isFieldComparable : Operator → Bool
  | .equal | .diff | .like | .notLike | .less | .lessOrEqual | .greater | .greaterOrEqual => true
  | _ => false

/-- The two tests for null have no value beside them. -/
def takesValue : Operator → Bool
  | .isNull | .isNotNull => false
  | _ => true

end Operator

/-- How a condition is attached to the conditions before it. -/
inductive Connective where
  | and
  | or
deriving DecidableEq, Repr

def Connective.spelling : Connective → String
  | .and => "and"
  | .or => "or"

/-- Which side of a join keeps its rows when the other side has none. -/
inductive JoinOperator where
  | inner
  | left
  | right
deriving DecidableEq, Repr

def JoinOperator.spelling : JoinOperator → String
  | .inner => "inner"
  | .left => "left"
  | .right => "right"

/-- The functions of a group. -/
inductive Aggregate where
  | count
  | avg
  | min
  | max
  | sum
deriving DecidableEq, Repr

namespace Aggregate

def spelling : Aggregate → String
  | .count => "count"
  | .avg => "avg"
  | .min => "min"
  | .max => "max"
  | .sum => "sum"

/-- The function applied to a field. -/
def apply (f : Aggregate) (field : String) : String := f.spelling ++ "(" ++ field ++ ")"

end Aggregate

/-- From the least to the greatest, or the other way around. -/
inductive SortOrder where
  | asc
  | desc
deriving DecidableEq, Repr

def SortOrder.spelling : SortOrder → String
  | .asc => "ASC"
  | .desc => "DESC"

end EntityQuery
