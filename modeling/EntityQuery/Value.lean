import EntityQuery.Keyed
import EntityQuery.Projection.Instance
import EntityQuery.Scalar.Cast

/-! # Values

Values flow through conditions, rows and projections.  Besides the scalars they are null, lists,
records of an entity, and instances that are passed through as they are. -/

namespace EntityQuery

/-- An instance carried by a row.  The token tells apart instances that hold the same. -/
structure Object where
  token : Nat
  content : Instance

/-- Records hold their fields in the order of the field names, each name once. -/
inductive Value where
  | null
  | scalar (s : Scalar)
  | list (items : List Value)
  | record (entity : String) (fields : List (String × Value))
  | object (o : Object)

instance : Inhabited Value := ⟨.null⟩

/-- The fields of a record by their names. -/
abbrev Fields := List (String × Value)

/-- The value of a field; null for a field that is not there. -/
def Fields.get (fields : Fields) (name : String) : Value :=
  match fields.find? fun p => p.1 = name with
  | some p => p.2
  | none => .null

/-- Stores a field at its place in the order of names, over the value it had. -/
def Fields.put (name : String) (value : Value) (fields : Fields) : Fields :=
  Keyed.put name value fields

/-- A record of an entity. -/
structure Record where
  entity : String
  fields : Fields

namespace Record

/-- The value of a field; a field that is not there is null. -/
def get (r : Record) (name : String) : Value := r.fields.get name

/-- The field is replaced if it is there, and added behind the others if not. -/
def put (r : Record) (name : String) (value : Value) : Record :=
  { r with fields := r.fields.put name value }

/-- The record with these fields, a repeated name keeping its last value. -/
def ofFields (entity : String) (fields : List (String × Value)) : Record :=
  ⟨entity, Keyed.ofList fields⟩

/-- A record inside another one. -/
def toValue (r : Record) : Value := .record r.entity r.fields

end Record

namespace Value

def bool (b : Bool) : Value := .scalar (.bool b)
def string (s : String) : Value := .scalar (.string s)

/-- A 64-bit integer; null if there is none of that number. -/
def long (n : Int) : Value :=
  match BoundedInt.ofInt? .long n with
  | some b => .scalar (.integer .long b)
  | none => .null

/-- Nothing but null itself is null. -/
def isNull : Value → Bool
  | .null => true
  | _ => false

/-- The type of a scalar; other values have none. -/
def scalarType? : Value → Option ScalarType
  | .scalar s => some s.type
  | _ => none

/-- The name of the type of a value, as messages give it. -/
def typeName : Value → String
  | .null => "null"
  | .scalar s => s.type.name
  | .list _ => "List"
  | .record .. => "Record"
  | .object o => o.content.type

def toString? : Value → Option String
  | .scalar (.string s) => some s
  | _ => none

def toList? : Value → Option (List Value)
  | .list items => some items
  | _ => none

def toRecord? : Value → Option Record
  | .record entity fields => some ⟨entity, fields⟩
  | _ => none

/-- Only scalars can be cast. -/
def cast (target : ScalarType) : Value → Result Scalar
  | .scalar s => s.cast target
  | v => .error (.unsupportedCast target v.typeName)

end Value

end EntityQuery
