import EntityQuery.Projection.Reading
import EntityQuery.Row
import EntityQuery.Schema

/-! # Targets of projection

A target describes how its instances are built: a default, constructors for rows of given types,
and named properties.  The properties of an entity are its attributes. -/

namespace EntityQuery

variable {E T : Type}

/-- What a column may set.  A setter reads one scalar, a nested property holds another instance and
a collection holds any number of them. -/
inductive Property (T : Type) where
  | setter (slot : String) (type : ScalarType) (nullable : Bool)
  | nested (slot : String) (target : T)
  | collection (slot : String) (target : T)

/-- Instances are built from as many values as there are types, each cast to its own. -/
structure Constructor where
  types : List ScalarType
  build : List Value → Result Slots

/-- A type that rows are projected to: how its instances are made, and how their properties are set.
-/
structure Target (T : Type) where
  type : String
  default? : Option Slots
  constructors : List Constructor
  properties : List (String × Property T)

/-- Every `T` is the name of a target. -/
class Projectable (T : Type) where
  target : T → Target T

namespace Target

/-- A target of which nothing is known but its name. -/
def opaqueOf (type : String) : Target T := ⟨type, none, [], []⟩

/-- The property of that name, if there is one. -/
def property? (t : Target T) (name : String) : Option (Property T) :=
  (t.properties.find? fun p => p.1 = name).map Prod.snd

/-- The first constructor whose types are those of the values. -/
def constructor? (t : Target T) (values : List Value) : Option Constructor :=
  t.constructors.find? fun c => values.map Value.scalarType? = c.types.map some

end Target

/-- The content of an attribute's slot before anything is stored in it. -/
def Attribute.initial (a : Attribute E) : Slot :=
  match a.kind with
  | .basic type nullable => if nullable then .absent else .scalar (Scalar.default type)
  | .relation _ many => if many then .many [] else .absent

/-- An attribute of an entity is set from a column, from the columns of one record or from a list.
-/
def Attribute.property (embed : E → T) (a : Attribute E) : Property T :=
  match a.kind with
  | .basic type nullable => .setter a.name type nullable
  | .relation target many =>
    if many then .collection a.name (embed target) else .nested a.name (embed target)

/-- The target of an entity's instances, which are called `type`. -/
def Schema.target [Schema E] (embed : E → T) (type : String) (e : E) : Target T where
  type := type
  default? := some ((Schema.attributes e).map fun a => (a.name, a.initial))
  constructors := []
  properties := (Schema.attributes e).map fun a => (a.name, a.property embed)

end EntityQuery
