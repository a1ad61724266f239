import EntityQuery.Operator
import EntityQuery.Text.Pieces

/-! # Selections, orders and fetched relationships -/

namespace EntityQuery

/-- A selected field, or `*` for the root of the query, to which a function may be applied. -/
structure Select where
  field : String
  alias? : Option String
  function? : Option Aggregate
deriving DecidableEq

namespace Select

def ofField (field : String) : Select := ⟨field, none, none⟩

/-- A star by itself selects the root. -/
def isRoot (s : Select) : Bool := s.field = "*"

/-- The alias of the column: the one that was asked for, or else the field, with `_` for each
point.  The root is called by the function applied to it. -/
def resultAlias (s : Select) : String :=
  match s.alias? with
  | some name => Text.replace '.' '_' name
  | none =>
    if s.isRoot then
      match s.function? with
      | some f => f.spelling
      | none => "root"
    else Text.replace '.' '_' s.field

end Select

/-- A field that rows are sorted by. -/
structure Order where
  field : String
  sort : SortOrder
deriving DecidableEq

/-- A relationship that is loaded together with the root.  A nested one is already qualified. -/
structure JoinFetch where
  relationship : String
  alias? : Option String
  nested : Bool
  operator : JoinOperator
deriving DecidableEq

/-- A fetched relationship, called by its path with `_` for each point. -/
def JoinFetch.ofRelationship (relationship : String) (operator : JoinOperator) : JoinFetch :=
  ⟨relationship, some (Text.replace '.' '_' relationship), false, operator⟩

end EntityQuery
