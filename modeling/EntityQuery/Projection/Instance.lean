import EntityQuery.Scalar

/-! # Instances

An instance is what rows are projected onto: a named type and the content of its slots, which are
scalars, other instances and collections of instances. -/

namespace EntityQuery

/-- What an instance holds in a place: a scalar or none, an instance of a type, or a collection. -/
inductive Slot where
  | scalar (s : Scalar)
  | absent
  | one (type : String) (slots : List (String × Slot))
  | many (items : List Slot)

/-- The places of an instance with what they hold. -/
abbrev Slots := List (String × Slot)

/-- The content of the slot `name`; a slot that is not there is absent. -/
def Slots.get (slots : Slots) (name : String) : Slot :=
  match slots.find? fun p => p.1 = name with
  | some p => p.2
  | none => .absent

/-- The same slots with other content under `name`. -/
def Slots.put (slots : Slots) (name : String) (content : Slot) : Slots :=
  slots.map fun p => if p.1 = name then (name, content) else p

/-- The slots of an instance, and what it is an instance of. -/
structure Instance where
  type : String
  slots : Slots

end EntityQuery
