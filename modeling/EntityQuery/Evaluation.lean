import EntityQuery.Evaluation.Group
import EntityQuery.Evaluation.Join
import EntityQuery.Evaluation.Sort

/-! # Evaluation of query graphs

The rows of a query over a dataset: the tuples of its root are joined, those on which its condition
holds are kept, grouped and sorted, and every group in the window becomes a row. -/

namespace EntityQuery

variable {E : Type}

namespace Fetch

/-- The value that a segment of a path leads to; a list leads to what its records lead to. -/
def step (v : Value) (segment : String) : Value :=
  match v with
  | .record _ fields => Fields.get fields segment
  | .list items => .list (items.filterMap fun i => i.toRecord?.map fun r => r.get segment)
  | _ => .null

/-- There is something at the end of the path. -/
def isPresent (f : Fetch) (root : Record) : Bool :=
  match (Text.split '.' f.path).foldl step root.toValue with
  | .null => false
  | .list items => items.any fun i => !i.isNull
  | _ => true

end Fetch

namespace Plan

/-- What is fetched with an inner join must be there; a tuple without a root has nothing to lack. -/
def fetchesPresent (p : Plan E) (t : Tuple) : Bool :=
  match t.record? .root with
  | none => true
  | some root => p.fetches.all fun f => f.operator ≠ .inner || f.isPresent root

/-- Groups, or every tuple by itself. -/
def grouped (p : Plan E) (frames : Frames) (ts : List Tuple) : Result (List (List Tuple)) :=
  if p.isGrouped then groupTuples frames p.groups ts else .ok (ts.map ([·]))

/-- The tuple that stands for a group; an empty group is stood for by empty slots. -/
def representative (p : Plan E) (group : List Tuple) : Tuple :=
  group.head?.getD (List.replicate (p.joins.length + 1) none)

/-- Each group with its sort key: the values of the orders for the tuple that represents it. -/
def sortKeys (p : Plan E) (frames : Frames) :
    List (List Tuple) → Result (List (List Value × List Tuple))
  | [] => .ok []
  | g :: gs => do
    let key ← Expression.evaluateAll frames (p.representative g)
      (p.orders.map Sorting.expression)
    let rest ← sortKeys p frames gs
    return (key, g) :: rest

/-- Groups are sorted by their keys, and those with equal keys keep their order. -/
def sorted (p : Plan E) (frames : Frames) (gs : List (List Tuple)) :
    Result (List (List Tuple)) :=
  if p.orders.isEmpty then .ok gs
  else (p.sortKeys frames gs).map fun keyed =>
    (stableSort (fun a b => Value.compareKeys (p.orders.map Sorting.sort) a.1 b.1 = .lt)
      keyed).map Prod.snd

/-- The part of the results that is asked for. -/
def window {α : Type} (p : Plan E) (as : List α) : List α :=
  let rest := as.drop (p.first?.getD 0)
  match p.max? with
  | some max => rest.take max
  | none => rest

/-- The columns of a group's row.  An aggregate is of the whole group, and anything else is of the
tuple that represents it. -/
def columns (p : Plan E) (frames : Frames) (group : List Tuple) :
    List Selection → Result (List Column)
  | [] => .ok []
  | s :: ss => do
    let v ← match s.expression with
      | .aggregate f e => f.ofGroup frames e group
      | e => e.evaluate frames (p.representative group)
    let rest ← columns p frames group ss
    return ⟨s.alias?, v⟩ :: rest

/-- One row for each group, in their order. -/
def rows (p : Plan E) (frames : Frames) : List (List Tuple) → Result (List Row)
  | [] => .ok []
  | g :: gs => do
    let columns ← p.columns frames g p.selections
    let rest ← rows p frames gs
    return ⟨columns⟩ :: rest

variable [Schema E]

/-- The records of the root, each in a slot of its own. -/
def rootTuples (p : Plan E) (data : Dataset) : List Tuple :=
  (data.records (Schema.name p.root)).map fun r => [some r]

/-- The joined tuples, before any condition on them. -/
def joined (p : Plan E) (data : Dataset) (frames : Frames) : Result (List Tuple) :=
  JoinNode.joinAll data frames 1 (p.rootTuples data) p.joins

/-- The joined tuples on which the condition holds. -/
def filtered (p : Plan E) (data : Dataset) (condition? : Option (Predicate Meaning))
    (frames : Frames) : Result (List Tuple) := do
  let ts ← p.joined data frames
  let kept ← match condition? with
    | some c => keepHolding (fun t => c.test frames t) ts
    | none => .ok ts
  return kept.filter p.fetchesPresent

/-- The rows of one level, given the meanings of the queries in its condition. -/
def meaning (data : Dataset) (p : Plan E) (condition? : Option (Predicate Meaning)) : Meaning :=
  fun frames => do
    let ts ← p.filtered data condition? frames
    let gs ← p.grouped frames ts
    let gs ← p.sorted frames gs
    p.rows frames (p.window gs)

end Plan

namespace GraphQuery

/-- The rows of a query, and of every query in it, over a dataset. -/
def meaning [Schema E] (data : Dataset) : GraphQuery E → Meaning := interpret (Plan.meaning data)

/-- The rows of an outermost query. -/
def run [Schema E] (data : Dataset) (q : GraphQuery E) : Result (List Row) := q.meaning data []

end GraphQuery

end EntityQuery
