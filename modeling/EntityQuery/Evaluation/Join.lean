import EntityQuery.Dataset
import EntityQuery.Evaluation.Predicate
import EntityQuery.GraphQuery.Query
import EntityQuery.Schema

/-! # Joined tuples

Every join extends each tuple by every candidate on which its condition holds.  A left join keeps a
tuple without such a candidate; a right join adds the records of its entity that no tuple was
extended by, behind empty slots. -/

namespace EntityQuery.JoinNode

variable {E : Type}

/-- The records that a value holds, by itself or in a list. -/
def heldRecords : Value → List Record
  | .record entity fields => [⟨entity, fields⟩]
  | .list items => items.filterMap Value.toRecord?
  | _ => []

/-- The condition on the tuple with the candidate in the next slot. -/
def testOn (n : JoinNode E) (frames : Frames) (t : Tuple) (candidate : Record) : Result Truth :=
  match n.on? with
  | some p => (p.map Empty.elim).test frames (t ++ [some candidate])
  | none => .ok .holds

/-- A tuple with each of the accepted candidates. -/
def extensions (n : JoinNode E) (t : Tuple) (rs : List Record) : List Tuple :=
  if rs.isEmpty && n.operator = .left then [t ++ [none]] else rs.map fun r => t ++ [some r]

variable [Schema E]

/-- The records that a tuple could be extended by: those of the joined entity, or those behind the
relationship. -/
def candidates (data : Dataset) (n : JoinNode E) (t : Tuple) : List Record :=
  match n.kind with
  | .entity => data.records (Schema.name n.entity)
  | .relation =>
    match t.record? n.parent with
    | some r => heldRecords (r.get n.via)
    | none => []

/-- The candidates on which the condition holds. -/
def accepted (data : Dataset) (n : JoinNode E) (frames : Frames) (t : Tuple) :
    Result (List Record) :=
  keepHolding (n.testOn frames t) (n.candidates data t)

/-- Each tuple with its accepted candidates. -/
def pairings (data : Dataset) (n : JoinNode E) (frames : Frames) :
    List Tuple → Result (List (Tuple × List Record))
  | [] => .ok []
  | t :: ts => do
    let rs ← n.accepted data frames t
    let rest ← pairings data n frames ts
    return (t, rs) :: rest

/-- The records of the entity that equal none of those that were accepted. -/
def unmatched (data : Dataset) (n : JoinNode E) (matched : List Record) : List Record :=
  (data.records (Schema.name n.entity)).filter fun r =>
    !matched.any fun m => m.toValue.equals r.toValue

/-- Joins tuples of `width` slots. -/
def join (data : Dataset) (n : JoinNode E) (frames : Frames) (width : Nat) (ts : List Tuple) :
    Result (List Tuple) := do
  let pairs ← n.pairings data frames ts
  let extended := pairs.flatMap fun p => n.extensions p.1 p.2
  if n.operator = .right then
    let rest := n.unmatched data (pairs.flatMap Prod.snd)
    return extended ++ rest.map fun r => List.replicate width none ++ [some r]
  else return extended

/-- Joins one after the other, each widening the tuples by a slot. -/
def joinAll (data : Dataset) (frames : Frames) (width : Nat) (ts : List Tuple) :
    List (JoinNode E) → Result (List Tuple)
  | [] => .ok ts
  | n :: ns => do
    let ts ← n.join data frames width ts
    joinAll data frames (width + 1) ts ns

end EntityQuery.JoinNode
