import EntityQuery.GraphQuery.Predicate

/-! # Query graphs

A query graph names the rows it ranges over by position: the root first and then the joins, each of
which starts at rows that come before it.  Conditions may hold queries one level deeper. -/

namespace EntityQuery

variable {E τ : Type}

/-- How the rows of a join are found. -/
inductive JoinKind where
  /-- The rows that an attribute of the parent leads to. -/
  | relation
  /-- All rows of an entity. -/
  | entity
deriving DecidableEq, Repr

/-- A join that is attached to the root or to a join before it. -/
structure JoinNode (E : Type) where
  parent : Node
  /-- The attribute that is followed, or the name of the entity. -/
  via : String
  entity : E
  /-- The alias of its rows. -/
  name : String
  operator : JoinOperator
  kind : JoinKind
  on? : Option (Predicate Empty)

/-- A relationship of the root whose records are fetched with it. -/
structure Fetch where
  path : String
  alias? : Option String
  operator : JoinOperator
deriving DecidableEq

/-- An expression of which the value is a column. -/
structure Selection where
  expression : Expression
  alias? : Option String

/-- An expression that groups are sorted by. -/
structure Sorting where
  expression : Expression
  sort : SortOrder

/-- Everything about a query graph but its condition. -/
structure Plan (E : Type) where
  depth : Nat
  root : E
  joins : List (JoinNode E)
  fetches : List Fetch
  selections : List Selection
  orders : List Sorting
  groups : List Expression
  /-- How many rows to skip. -/
  first? : Option Nat
  /-- How many rows to return at most. -/
  max? : Option Nat
  /-- The type of the only column, if values are to be compared with it. -/
  resultType? : Option ScalarType

/-- Rows are gathered into groups, which an aggregate alone brings about. -/
def Plan.isGrouped (p : Plan E) : Bool :=
  !p.groups.isEmpty || p.selections.any fun s => s.expression.isAggregate

/-- A compiled query.  The queries inside its condition are compiled too, for one level deeper. -/
structure GraphQuery (E : Type) where
  plan : Plan E
  condition? : Option (Predicate (GraphQuery E))

namespace GraphQuery

/-- The query with another window on its rows. -/
def withWindow (first? max? : Option Nat) (q : GraphQuery E) : GraphQuery E :=
  { q with plan := { q.plan with first? := first?, max? := max? } }

mutual

/-- The meaning of a query, given what a level means once the queries inside it have theirs. -/
def interpret (level : Plan E → Option (Predicate τ) → τ) : GraphQuery E → τ
  | ⟨plan, condition?⟩ => level plan (interpretCondition level condition?)

def interpretCondition (level : Plan E → Option (Predicate τ) → τ) :
    Option (Predicate (GraphQuery E)) → Option (Predicate τ)
  | none => none
  | some p => some (interpretPredicate level p)

def interpretPredicate (level : Plan E → Option (Predicate τ) → τ) :
    Predicate (GraphQuery E) → Predicate τ
  | .compare left comparator right => .compare left comparator right
  | .like subject pattern negated => .like subject pattern negated
  | .isNull e => .isNull e
  | .isNotNull e => .isNotNull e
  | .isIn e values => .isIn e values
  | .inSubQuery e query => .inSubQuery e (interpret level query)
  | .exist query => .exist (interpret level query)
  | .not p => .not (interpretPredicate level p)
  | .and p q => .and (interpretPredicate level p) (interpretPredicate level q)
  | .or p q => .or (interpretPredicate level p) (interpretPredicate level q)

end

/-- Reading a predicate is reading the queries in it. -/
theorem interpretPredicate_eq_map (level : Plan E → Option (Predicate τ) → τ)
    (p : Predicate (GraphQuery E)) : interpretPredicate level p = p.map (interpret level) := by
  induction p with
  | not p ih => exact congrArg Predicate.not ih
  | and p q ihp ihq => simp only [interpretPredicate, Predicate.map, ihp, ihq]
  | or p q ihp ihq => simp only [interpretPredicate, Predicate.map, ihp, ihq]
  | _ => rfl

end GraphQuery

end EntityQuery
