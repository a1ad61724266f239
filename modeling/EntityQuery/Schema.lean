import EntityQuery.Scalar
import EntityQuery.Text.Lowercase
import EntityQuery.Text.Pieces

/-! # Schemas

A schema gives every entity a name and its attributes, which are called by identifiers.
Relationships lead from entity to entity, in circles if they like, and a dotted path is followed
through them. -/

namespace EntityQuery

/-- What an attribute holds: a scalar, or one instance or many of another entity. -/
inductive AttributeKind (E : Type) where
  | basic (type : ScalarType) (nullable : Bool)
  | relation (target : E) (many : Bool)

/-- What an entity has under a name. -/
structure Attribute (E : Type) where
  name : String
  kind : AttributeKind E

/-- What attributes can be called.  An identifier has neither the point between the names of a path
nor the star that selects an entity. -/
structure IsIdentifier (name : String) : Prop where
  ne_empty : name ≠ ""
  point_notMem : '.' ∉ name.toList
  star_notMem : '*' ∉ name.toList

instance (name : String) : Decidable (IsIdentifier name) :=
  decidable_of_iff (name ≠ "" ∧ '.' ∉ name.toList ∧ '*' ∉ name.toList)
    ⟨fun ⟨hempty, hpoint, hstar⟩ => ⟨hempty, hpoint, hstar⟩,
      fun ⟨hempty, hpoint, hstar⟩ => ⟨hempty, hpoint, hstar⟩⟩

/-- The entities of a program: what they are called, and what they have.  The names of attributes
are checked where the entities are declared, case by case. -/
class Schema (E : Type) where
  name : E → String
  attributes : E → List (Attribute E)
  identified : ∀ e, ∀ a ∈ attributes e, IsIdentifier a.name := by
    intro e
    cases e <;> decide

variable {E : Type}

namespace Attribute

/-- The type of a basic attribute.  A relationship has none. -/
def type? (a : Attribute E) : Option ScalarType :=
  match a.kind with
  | .basic type _ => some type
  | .relation .. => none

/-- The entity that a relationship leads to. -/
def target? (a : Attribute E) : Option E :=
  match a.kind with
  | .basic .. => none
  | .relation target _ => some target

/-- A relationship to any number of records. -/
def isMany (a : Attribute E) : Bool :=
  match a.kind with
  | .basic .. => false
  | .relation _ many => many

end Attribute

namespace Schema

variable [Schema E]

def attribute? (e : E) (name : String) : Option (Attribute E) :=
  (attributes e).find? fun a => a.name = name

/-- The lowercase name, which stands for the entity as the root of a query. -/
def acronym (e : E) : String := Text.lowercase (name e)

/-- The attribute at the end of a path of attribute names; all before it are relationships. -/
def follow? (e : E) : List String → Option (Attribute E)
  | [] => none
  | [last] => attribute? e last
  | segment :: rest => do
    let a ← attribute? e segment
    let target ← a.target?
    follow? target rest

/-- The attribute at the end of a dotted path. -/
def resolvePath? (e : E) (path : String) : Option (Attribute E) := follow? e (Text.split '.' path)

end Schema

/-- The kind of an attribute, for people to read. -/
def AttributeKind.text [Schema E] : AttributeKind E → String
  | .basic type _ => "Basic(" ++ type.name ++ ")"
  | .relation target many =>
    "Relation(" ++ Schema.name target ++ ", many: " ++ (if many then "true" else "false") ++ ")"

end EntityQuery
