import EntityQuery.Dataset
import EntityQuery.Document.Reader
import EntityQuery.Document.Text
import EntityQuery.Schema

/-! # Fixtures

Records are read from JSON objects along a schema.  Members that are no attributes are skipped;
scalars are cast to the types of their attributes, and relationships hold records in turn. -/

namespace EntityQuery

variable {E : Type}

/-- What is read from a document: a scalar, a record, or the records of a relationship to many. -/
inductive Wanted (E : Type) where
  | scalar (type : ScalarType)
  | record (entity : E)
  | records (entity : E) (relationship : String) (target : E)

/-- What an attribute of an entity holds. -/
def Attribute.wanted (a : Attribute E) (entity : E) : Wanted E :=
  match a.kind with
  | .basic type _ => .scalar type
  | .relation target many => if many then .records entity a.name target else .record target

namespace Fixture

/-- The value that a scalar document stands for, whatever type is wanted. -/
def plainValue? : Document → Option Value
  | .bool b => some (.bool b)
  | .string s => some (.string s)
  | .integer n =>
    match BoundedInt.ofInt? .long n with
    | some b => some (.scalar (.integer .long b))
    | none => some (.scalar (.double (.ofInt .double n)))
  | .double d => some (.scalar (.double d))
  | .null | .array _ | .object _ => none

/-- A document as a value of the type of its attribute. -/
def scalar (type : ScalarType) (d : Document) : Result Value :=
  match plainValue? d with
  | some v => (v.cast type).map .scalar
  | none => .error (.fixtureNotScalar type d.text)

variable [Schema E]

mutual

/-- A document as what is wanted of it: the value of an attribute, a record, or the records of a
relationship. -/
def value : Wanted E → Document → Result Value
  | .scalar type, d => scalar type d
  | .record entity, .object members =>
    (fields entity members).map fun fs => (Record.ofFields (Schema.name entity) fs).toValue
  | .record entity, d => .error (.fixtureNotObject (Schema.name entity) d.text)
  | .records _ _ target, .array items => (records target items).map .list
  | .records entity relationship _, d =>
    .error (.fixtureNotList (Schema.name entity) relationship d.text)

def records (entity : E) : List Document → Result (List Value)
  | [] => .ok []
  | d :: ds => do
    let v ← value (.record entity) d
    let vs ← records entity ds
    return v :: vs

/-- The values of the members that are attributes; null stands for no value of any attribute. -/
def fields (entity : E) : List (String × Document) → Result (List (String × Value))
  | [] => .ok []
  | (name, d) :: members =>
    match Schema.attribute? entity name with
    | none => fields entity members
    | some a => do
      let v ← if d.isNull then .ok .null else value (a.wanted entity) d
      let vs ← fields entity members
      return (name, v) :: vs

end

/-- The record of an entity that a document writes. -/
def record (entity : E) (d : Document) : Result Record :=
  match d with
  | .object members => (fields entity members).map (Record.ofFields (Schema.name entity))
  | d => .error (.fixtureNotObject (Schema.name entity) d.text)

end Fixture

namespace Dataset

variable [Schema E]

/-- Inserts the records of documents up to the first one that is refused. -/
def insertDocuments (data : Dataset) (entity : E) : List Document → Dataset × Option Error
  | [] => (data, none)
  | d :: ds =>
    match Fixture.record entity d with
    | .ok r => insertDocuments (data.insert r) entity ds
    | .error e => (data, some e)

/-- Inserts the records of a JSON array, with the error if there is one. -/
def load (data : Dataset) (entity : E) (text : String) : Dataset × Option Error :=
  match Document.read? text with
  | none => (data, some .fixtureSyntax)
  | some (.array items) => data.insertDocuments entity items
  | some _ => (data, some (.fixturesNotArray (Schema.name entity)))

end Dataset

end EntityQuery
