import EntityQuery.Clause.Join
import EntityQuery.GraphQuery.Comparison
import EntityQuery.GraphQuery.Scope

/-! # Joins in a graph

Every segment of a joined path becomes a node, a node coming after the one it starts from.  The
nodes of one query have different aliases: a segment whose alias is taken stands for the node that
took it. -/

namespace EntityQuery

variable {E : Type}

/-- The nodes that were made so far, and the scope that knows them. -/
structure Joining (E : Type) where
  nodes : List (JoinNode E)
  scope : Scope E

namespace Joining

/-- The rows of the node that took an alias. -/
def taken? (s : Joining E) (name : String) : Option (Entry E) := do
  let index ← s.nodes.findIdx? fun n => n.name = name
  let node ← s.nodes[index]?
  return ⟨⟨s.scope.depth, .join index⟩, node.entity⟩

/-- The rows of the next node, over an entity. -/
def next (s : Joining E) (entity : E) : Entry E :=
  ⟨⟨s.scope.depth, .join s.nodes.length⟩, entity⟩

/-- A node goes behind the others, and the scope knows its rows by its name from then on. -/
def push (s : Joining E) (node : JoinNode E) : Joining E :=
  ⟨s.nodes ++ [node], s.scope.register node.name (s.next node.entity)⟩

end Joining

variable [Schema E]

namespace JoinCondition

/-- A condition on the joined rows.  A single value can stand for a list of one. -/
def predicate (c : JoinCondition) (rows : Entry E) : Result (Predicate Empty) := do
  let path ← rows.resolve c.field
  match c.operator with
  | .findInSet | .notFindInSet => .error (.joinConditionOperator c.operator)
  | .isIn | .notIn =>
    .ok (Predicate.membership path (c.value.toList?.getD [c.value]) (c.operator = .isIn))
  | operator => Predicate.compareValue path operator c.value

/-- The conditions of a join with how each is attached, all about the rows it leads to. -/
def predicates (rows : Entry E) :
    List JoinCondition → Result (List (Connective × Predicate Empty))
  | [] => .ok []
  | c :: cs => do
    let p ← c.predicate rows
    let ps ← predicates rows cs
    return (c.attach, p) :: ps

end JoinCondition

namespace Join

/-- The equality that a join is made on; the reference is any field of the scope. -/
def equality? (j : Join E) (scope : Scope E) (rows : Entry E) :
    Result (Option (Predicate Empty)) :=
  match j.fieldJoin?, j.fieldReference? with
  | some fieldJoin, some fieldReference => do
    let left ← rows.resolve fieldJoin
    let right ← scope.resolve fieldReference
    return some (.compare (.path left) .equal (.path right))
  | _, _ => .ok none

/-- The condition under which rows are joined: the equality and then the conditions. -/
def on? (j : Join E) (scope : Scope E) (rows : Entry E) : Result (Option (Predicate Empty)) := do
  let equality? ← j.equality? scope rows
  let conditions ← JoinCondition.predicates rows j.conditions
  return Predicate.both equality? (Predicate.fold conditions)

/-- Joins with an entity under an equality. -/
def attachEntity (j : Join E) (s : Joining E) (entity : E) : Result (Joining E × Entry E) :=
  match s.taken? j.key with
  | some rows => .ok (s, rows)
  | none => do
    let rows := s.next entity
    let on? ← j.on? s.scope rows
    return (s.push {
      parent := .root
      via := Schema.name entity
      entity := entity
      name := j.key
      operator := j.operator
      kind := .entity
      on? := on? }, rows)

/-- Joins along segments from rows on.  The last segment gets the alias and the condition. -/
def attachSegments (j : Join E) (s : Joining E) (current : Entry E) :
    List String → Result (Joining E × Entry E)
  | [] => .ok (s, current)
  | segment :: rest =>
    let name := if rest.isEmpty then j.alias?.getD segment else segment
    match s.taken? name with
    | some rows => attachSegments j s rows rest
    | none =>
      match (Schema.attribute? current.entity segment).bind Attribute.target? with
      | none => .error (.relationshipMissing segment (Schema.name current.entity))
      | some target => do
        let rows := s.next target
        let on? ← if rest.isEmpty then j.on? s.scope rows else .ok none
        let node := {
          parent := current.origin.node
          via := segment
          entity := target
          name := name
          operator := j.operator
          kind := .relation
          on? := on? }
        attachSegments j (s.push node) rows rest

/-- The nodes of a join without those of the joins inside it. -/
def attachLevel (j : Join E) (s : Joining E) (parent : Entry E) : Result (Joining E × Entry E) :=
  if j.hasPath then
    match j.entity?, j.isCustom with
    | some entity, true => j.attachEntity s entity
    | _, _ => j.attachSegments s parent (Text.split '.' j.table)
  else .error (.joinPathInvalidOn j.table (Schema.name parent.entity))

mutual

/-- A join and the joins inside it are attached to the rows of its parent. -/
def attach (s : Joining E) (parent : Entry E) : Join E → Result (Joining E)
  | ⟨table, alias?, operator, fieldJoin?, fieldReference?, entity?, conditions, nested⟩ => do
    let level : Join E :=
      ⟨table, alias?, operator, fieldJoin?, fieldReference?, entity?, conditions, []⟩
    let (s, rows) ← level.attachLevel s parent
    attachAll s rows nested

/-- Joins one after the other, all from the same rows. -/
def attachAll (s : Joining E) (parent : Entry E) : List (Join E) → Result (Joining E)
  | [] => .ok s
  | j :: js => do
    let s ← attach s parent j
    attachAll s parent js

end

end Join

end EntityQuery
