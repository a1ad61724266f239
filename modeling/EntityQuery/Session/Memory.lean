import EntityQuery.Evaluation
import EntityQuery.Session.Kind

/-! # Sessions in memory

A session that evaluates query graphs over a dataset, and keeps the queries it could answer. -/

namespace EntityQuery

variable {E : Type} [Schema E]

/-- Records, and the queries that were answered from them. -/
structure Memory (E : Type) where
  data : Dataset
  executed : List (GraphQuery E)

/-- A query is answered from the records, and it is kept only if it has an answer. -/
def Memory.session : Session (GraphQuery E) (Memory E) where
  answer q m :=
    match q.run m.data with
    | .ok rows => (.ok rows, { m with executed := m.executed ++ [q] })
    | .error e => (.error e, m)

end EntityQuery
