import EntityQuery.Evaluation.Comparison
import EntityQuery.Evaluation.Expression
import EntityQuery.Row

/-! # Truth of predicates

A query inside a predicate is tested through its meaning: the rows it has inside given frames. -/

namespace EntityQuery

/-- The rows of a query inside frames. -/
abbrev Meaning := Frames → Result (List Row)

namespace Predicate

/-- The first column of every row that has one. -/
def firstColumn (rows : List Row) : List Value := rows.filterMap Row.first?

/-- The right side of a conjunction is not looked at if the left side fails, nor that of a
disjunction if the left side holds. -/
def test (frames : Frames) (current : Tuple) : Predicate Meaning → Result Truth
  | .compare left comparator right => do
    let a ← left.evaluate frames current
    let b ← right.evaluate frames current
    return a.compareTruth comparator b
  | .like subject pattern negated => do
    let v ← subject.evaluate frames current
    let p ← pattern.evaluate frames current
    v.likeTruth p negated
  | .isNull e => do return .ofBool (← e.evaluate frames current).isNull
  | .isNotNull e => do return .ofBool !(← e.evaluate frames current).isNull
  | .isIn e values => do return (← e.evaluate frames current).memberTruth values
  | .inSubQuery e query => do
    let v ← e.evaluate frames current
    let rows ← query (frames ++ [current])
    return v.memberTruth (firstColumn rows)
  | .exist query => do return .ofBool !(← query (frames ++ [current])).isEmpty
  | .not p => (test frames current p).map Truth.not
  | .and p q => do
    match ← test frames current p with
    | .fails => return .fails
    | t => return t.and (← test frames current q)
  | .or p q => do
    match ← test frames current p with
    | .holds => return .holds
    | t => return t.or (← test frames current q)

end Predicate

/-- The items on which a test holds, in their order. -/
def keepHolding {α : Type} (test : α → Result Truth) : List α → Result (List α)
  | [] => .ok []
  | a :: as => do
    let t ← test a
    let kept ← keepHolding test as
    return if t = .holds then a :: kept else kept

end EntityQuery
