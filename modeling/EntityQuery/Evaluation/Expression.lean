import EntityQuery.Error
import EntityQuery.GraphQuery.Predicate
import EntityQuery.Value.Text

/-! # Values of expressions

A tuple holds the record of the root and one of each join; an outer join may leave a slot empty.
The tuples of the queries around a query are its frames, by their depth. -/

namespace EntityQuery

/-- The records of the root and of each join, in this order; there is none where an outer join found
nothing. -/
abbrev Tuple := List (Option Record)

/-- The tuples of the queries around a sub query, the outermost first. -/
abbrev Frames := List Tuple

/-- The place of rows in a tuple. -/
def Node.slot : Node → Nat
  | .root => 0
  | .join index => index + 1

namespace Tuple

/-- The record of a node, if the tuple has one. -/
def record? (t : Tuple) (node : Node) : Option Record := (t[node.slot]?).join

end Tuple

/-- The value that attributes lead to; there is none behind anything but a record. -/
def Value.along : Value → List String → Value
  | v, [] => v
  | .record _ fields, a :: attributes => (Fields.get fields a).along attributes
  | _, _ :: _ => .null

namespace Path

/-- The tuple that a path starts in: that of a frame, or else the current one. -/
def tuple (p : Path) (frames : Frames) (current : Tuple) : Tuple :=
  (frames[p.origin.depth]?).getD current

/-- The value of a path is null where there is no record. -/
def value (p : Path) (frames : Frames) (current : Tuple) : Value :=
  match (p.tuple frames current).record? p.origin.node with
  | some r => r.toValue.along p.attributes
  | none => .null

end Path

namespace Expression

/-- The position, from one on, of a text among parts between commas; zero if it is none of them. -/
def positionInSet (needle haystack : String) : Nat :=
  match (Text.split ',' haystack).findIdx? fun part => part = needle with
  | some index => index + 1
  | none => 0

/-- The only function looks for a text in a list of texts, which a null on either side makes null.
-/
def callFunction (name : String) (arguments : List Value) : Result Value :=
  match name, arguments with
  | "find_in_set", [needle, haystack] =>
    if needle.isNull || haystack.isNull then .ok .null
    else .ok (.long (positionInSet needle.text haystack.text))
  | name, arguments => .error (.functionUnknown name arguments.length)

mutual

/-- The value of an expression for one tuple.  An aggregate is of a group and has none. -/
def evaluate (frames : Frames) (current : Tuple) : Expression → Result Value
  | .path p => .ok (p.value frames current)
  | .literal v => .ok v
  | .call name arguments => do callFunction name (← evaluateAll frames current arguments)
  | .aggregate f _ => .error (.aggregateOutsideGroup f)

def evaluateAll (frames : Frames) (current : Tuple) : List Expression → Result (List Value)
  | [] => .ok []
  | e :: es => do
    let v ← evaluate frames current e
    let vs ← evaluateAll frames current es
    return v :: vs

end

end Expression

end EntityQuery
