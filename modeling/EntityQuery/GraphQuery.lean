import EntityQuery.Draft.Meaning
import EntityQuery.GraphQuery.Condition
import EntityQuery.GraphQuery.Join
import EntityQuery.GraphQuery.Select

/-! # Query graphs of drafts

The graph of a draft is built level by level: first the joins, which complete the scope, and then
everything that refers to them. -/

namespace EntityQuery

variable {E : Type} [Schema E]

namespace JoinFetch

/-- A fetched relationship is one of the root. -/
def fetch (f : JoinFetch) (scope : Scope E) : Result Fetch := do
  let path ← scope.rootEntry.resolve f.relationship
  if path.type?.isSome then
    .error (.fetchNotARelationship f.relationship (Schema.name scope.root))
  else return ⟨f.relationship, f.alias?, f.operator⟩

end JoinFetch

namespace GraphQuery

/-- Relationships are fetched only along with whole rows. -/
def fetches (purpose : Purpose) (scope : Scope E) (o : Outline E) : Result (List Fetch) :=
  if purpose = .rows ∧ o.selects = [] then o.fetches.mapM fun f => f.fetch scope else .ok []

/-- What is selected depends on the purpose: rows, the number of roots, or the one column of a sub
query. -/
def selections (purpose : Purpose) (scope : Scope E) (o : Outline E) : Result (List Selection) :=
  match purpose with
  | .rows => Selection.ofRows scope o.selects
  | .count => .ok [Selection.countOfRoot scope]
  | .column => (Selection.ofColumn scope o.selects).map ([·])

/-- The path that rows are sorted by. -/
def sorting (scope : Scope E) (o : Order) : Result Sorting :=
  (scope.resolve o.field).map fun p => ⟨.path p, o.sort⟩

/-- Only a query for rows has an order. -/
def orders (purpose : Purpose) (scope : Scope E) (o : Outline E) : Result (List Sorting) :=
  if purpose = .rows then o.orders.mapM (sorting scope) else .ok []

/-- The path that tuples are grouped by. -/
def group (scope : Scope E) (field : String) : Result Expression :=
  (scope.resolve field).map .path

/-- The graph of one level, in the scope that knows its root.  Only a query for rows has a
window. -/
def ofLevel (purpose : Purpose) (scope : Scope E) (o : Outline E)
    (conditions : List (GraphClause E)) : Result (GraphQuery E) := do
  let ⟨joins, scope⟩ ← Join.attachAll ⟨[], scope⟩ scope.rootEntry o.joins
  let fetches ← fetches purpose scope o
  let selections ← selections purpose scope o
  let orders ← orders purpose scope o
  let condition? ← GraphClause.foldPredicate scope conditions
  let groups ← o.groups.mapM (group scope)
  let plan := {
    depth := scope.depth
    root := o.root
    joins := joins
    fetches := fetches
    selections := selections
    orders := orders
    groups := groups
    first? := if purpose = .rows then o.offset? else none
    max? := if purpose = .rows then o.limit? else none
    resultType? := if purpose = .column then o.resultType? else none }
  return ⟨plan, condition?⟩

/-- A level as a sub query: its scope is inside the one it stands in. -/
def subQuery (o : Outline E) (conditions : List (GraphClause E)) : SubQuery E :=
  ⟨o, fun around => ofLevel .column (around.child o.root) o conditions⟩

/-- A draft is compiled outermost level first, in the scope that only knows its root. -/
def ofDraft (purpose : Purpose) (d : Draft E (ScopedCondition E)) : Result (GraphQuery E) :=
  ofLevel purpose (.ofRoot d.outline.root) d.outline (Draft.interpretAll subQuery d.conditions)

end GraphQuery

end EntityQuery
