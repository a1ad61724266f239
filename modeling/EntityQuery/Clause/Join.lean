import EntityQuery.Schema
import EntityQuery.Value

/-! # Joins

A join leads along a relationship, or to an entity under an equality of two fields.  Its table may
be a dotted path, and it may hold further joins that start where it ends. -/

namespace EntityQuery

/-- A condition on the joined entity, part of what the join is made on. -/
structure JoinCondition where
  field : String
  operator : Operator
  value : Value
  attach : Connective

/-- Rows that are joined: along the relationships that `table` names, or those of an entity that are
equal in two fields. -/
structure Join (E : Type) where
  table : String
  alias? : Option String
  operator : JoinOperator
  fieldJoin? : Option String
  fieldReference? : Option String
  entity? : Option E
  conditions : List JoinCondition
  nested : List (Join E)

namespace Join

variable {E : Type}

/-- An inner join along relationships, without an alias or conditions. -/
def ofTable (table : String) : Join E := ⟨table, none, .inner, none, none, none, [], []⟩

/-- A join on the equality of a field of the table and a field elsewhere. -/
def on (table fieldJoin fieldReference : String) : Join E :=
  { ofTable table with fieldJoin? := some fieldJoin, fieldReference? := some fieldReference }

/-- A join with an entity of the schema on the equality of two fields. -/
def onEntity [Schema E] (entity : E) (fieldJoin fieldReference : String) : Join E :=
  { on (Schema.name entity) fieldJoin fieldReference with entity? := some entity }

/-- One join for each segment, each inside the one before it; the last one gets the alias. -/
def chain (alias? : Option String) (operator : JoinOperator) : List String → Join E
  | [] => { ofTable "" with alias? := alias?, operator := operator }
  | [last] => { ofTable last with alias? := alias?, operator := operator }
  | segment :: rest =>
    { ofTable segment with operator := operator, nested := [chain alias? operator rest] }

/-- The joins of a dotted path, one inside the other. -/
def deep (path : String) (alias? : Option String) (operator : JoinOperator) : Join E :=
  chain alias? operator (Text.split '.' path)

/-- The name of the joined rows in a text query. -/
def acronym (j : Join E) : String := j.alias?.getD (Text.lowercase j.table)

/-- The name of the joined rows in a query graph. -/
def key (j : Join E) : String := j.alias?.getD j.table

/-- The join is made on an equality of two fields. -/
def isCustom (j : Join E) : Bool := j.fieldJoin?.isSome && j.fieldReference?.isSome

/-- No segment of the table is empty. -/
def hasPath (j : Join E) : Bool := (Text.split '.' j.table).all (· ≠ "")

/-- The join with one more condition, behind those it has. -/
def withCondition (j : Join E) (c : JoinCondition) : Join E :=
  { j with conditions := j.conditions ++ [c] }

/-- The join with one more join inside it, behind those it has. -/
def withNested (j inner : Join E) : Join E := { j with nested := j.nested ++ [inner] }

/-- The join without the joins inside it. -/
def level (j : Join E) : Join E := { j with nested := [] }

end Join

end EntityQuery
