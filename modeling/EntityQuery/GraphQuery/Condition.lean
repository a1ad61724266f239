import EntityQuery.Clause.Condition
import EntityQuery.Draft
import EntityQuery.GraphQuery.Comparison
import EntityQuery.GraphQuery.Scope

/-! # Conditions in a graph

A condition tree becomes one predicate, attached from left to right; groups in which nothing is left
are left out.  A sub query is built against the scope it stands in. -/

namespace EntityQuery

variable {E : Type} [Schema E]

/-- A sub query before it is known where it stands. -/
structure SubQuery (E : Type) where
  outline : Outline E
  query : Scope E → Result (GraphQuery E)

/-- A condition that a caller builds against the scope it stands in. -/
abbrev ScopedCondition (E : Type) := Scope E → Result (Predicate (GraphQuery E))

/-- A leaf in which sub queries wait for the scope around them. -/
abbrev GraphLeaf (E : Type) := Leaf (SubQuery E) (ScopedCondition E)

/-- Conditions in which sub queries wait for the scope around them. -/
abbrev GraphClause (E : Type) := Clause (SubQuery E) (ScopedCondition E)

namespace GraphClause

/-- A sub query that values are looked for in has one column, of a known type. -/
def inSubQuery (scope : Scope E) (path : Path) (operator : Operator) (sub : SubQuery E) :
    Result (Predicate (GraphQuery E)) :=
  if ¬(operator = .isIn ∨ operator = .notIn) then .error (.subQueryOperator operator)
  else if sub.outline.selects.length ≠ 1 then .error .subQuerySelectCount
  else if sub.outline.resultType?.isNone then .error .subQueryUntyped
  else do
    let query ← sub.query scope
    return Predicate.signed (operator = .isIn) (.inSubQuery (.path path) query)

/-- The second of two fields may be one of the query around this one. -/
def betweenFields (scope : Scope E) (field : String) (operator : Operator) (second : String) :
    Result (Predicate (GraphQuery E)) :=
  match Predicate.between? operator with
  | none => .error (.twoFieldOperator operator)
  | some build => do
    let left ← scope.resolve field
    let right ← scope.resolveOuter second
    return build (.path left) (.path right)

/-- The predicate of a leaf, its fields resolved in the scope of the query. -/
def leafPredicate (scope : Scope E) : GraphLeaf E → Result (Predicate (GraphQuery E))
  | .value field operator v => do
    let path ← scope.resolve field
    Predicate.compareValue path operator v
  | .subQuery field operator sub => do
    let path ← scope.resolve field
    inSubQuery scope path operator sub
  | .fields field operator second => betweenFields scope field operator second
  | .exist sub positive => do
    let query ← sub.query scope
    return Predicate.signed positive (.exist query)
  | .custom build => build scope

mutual

/-- A group comes to nothing if nothing is in it. -/
def predicate? (scope : Scope E) : GraphClause E → Result (Option (Predicate (GraphQuery E)))
  | .leaf _ l => (leafPredicate scope l).map some
  | .group _ members => (predicates scope members).map Predicate.fold

/-- The conditions that say anything, each with how it is attached. -/
def predicates (scope : Scope E) :
    List (GraphClause E) → Result (List (Connective × Predicate (GraphQuery E)))
  | [] => .ok []
  | c :: cs => do
    let p? ← predicate? scope c
    let ps ← predicates scope cs
    match p? with
    | some p => return (c.attach, p) :: ps
    | none => return ps

end

/-- The condition of a query, if it has any. -/
def foldPredicate (scope : Scope E) (cs : List (GraphClause E)) :
    Result (Option (Predicate (GraphQuery E))) :=
  (predicates scope cs).map Predicate.fold

end GraphClause

end EntityQuery
